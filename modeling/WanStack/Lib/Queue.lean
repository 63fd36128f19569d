import Mathlib.Data.List.Sort

set_option autoImplicit false

/-!
# A queue in the order of keys

New elements go in front of the first one with a greater key, so that elements of
one key keep the order in which they came. `seq` numbers the elements as they
come; in a queue made in this way each element is `Before` all that follow it.
-/
namespace WanStack.Lib.Queue

variable {α κ : Type} [LinearOrder κ] (key : α → κ) (seq : α → ℕ)

def Before (a b : α) : Prop := key a < key b ∨ key a = key b ∧ seq a < seq b

def enqueue (new : α) (l : List α) : List α := l.orderedInsert (fun a b => key a < key b) new

variable {key seq} {a b c new : α} {l : List α}

instance Before.decidable : Decidable (Before key seq a b) :=
  inferInstanceAs (Decidable (key a < key b ∨ key a = key b ∧ seq a < seq b))

theorem Before.trans (h : Before key seq a b) (h' : Before key seq b c) : Before key seq a c := by
  cases h with
  | inl hab =>
    cases h' with
    | inl hbc => exact Or.inl (hab.trans hbc)
    | inr hbc => exact Or.inl (hbc.1 ▸ hab)
  | inr hab =>
    cases h' with
    | inl hbc => exact Or.inl (hab.1.symm ▸ hbc)
    | inr hbc => exact Or.inr ⟨hab.1.trans hbc.1, hab.2.trans hbc.2⟩

theorem Before.key_le (h : Before key seq a b) : key a ≤ key b :=
  h.elim le_of_lt fun heq => heq.1.le

theorem not_before_self : ¬ Before key seq a a := by
  rintro (h | h)
  · exact lt_irrefl _ h
  · exact lt_irrefl _ h.2

theorem Before.not_symm (h : Before key seq a b) : ¬ Before key seq b a :=
  fun h' => not_before_self (h.trans h')

theorem mem_enqueue : a ∈ enqueue key new l ↔ a = new ∨ a ∈ l := List.mem_orderedInsert _

theorem pairwise_enqueue (h : l.Pairwise (Before key seq)) (hnew : ∀ a ∈ l, seq a < seq new) :
    (enqueue key new l).Pairwise (Before key seq) := by
  unfold enqueue
  induction l with
  | nil => exact List.pairwise_singleton _ _
  | cons b l ih =>
    have hb := List.pairwise_cons.mp h
    rw [List.orderedInsert_cons]
    split_ifs with hlt
    · refine List.pairwise_cons.mpr ⟨fun c hc => ?_, h⟩
      cases List.mem_cons.mp hc with
      | inl hc => exact hc ▸ Or.inl hlt
      | inr hc => exact Or.inl (lt_of_lt_of_le hlt (hb.1 c hc).key_le)
    · refine List.pairwise_cons.mpr ⟨fun c hc => ?_, ?_⟩
      · cases (List.mem_orderedInsert _).mp hc with
        | inr hc => exact hb.1 c hc
        | inl hc =>
          subst hc
          have hseq := hnew b List.mem_cons_self
          exact (lt_or_eq_of_le (not_lt.mp hlt)).elim Or.inl fun heq => Or.inr ⟨heq, hseq⟩
      · exact ih hb.2 fun c hc => hnew c (List.mem_cons_of_mem _ hc)

/-- The first element with a property is before all others that have it. -/
theorem find?_eq_some_iff (h : l.Pairwise (Before key seq)) (p : α → Bool) :
    l.find? p = some a ↔ a ∈ l ∧ p a = true ∧ ∀ b ∈ l, p b = true → b = a ∨ Before key seq a b := by
  induction l with
  | nil => simp
  | cons c l ih =>
    have hc := List.pairwise_cons.mp h
    rw [List.find?_cons]
    cases hp : p c with
    | true =>
      dsimp only
      constructor
      · intro hsome
        cases hsome
        refine ⟨List.mem_cons_self, hp, fun b hb _ => ?_⟩
        cases List.mem_cons.mp hb with
        | inl hb => exact Or.inl hb
        | inr hb => exact Or.inr (hc.1 b hb)
      · rintro ⟨ha, hpa, hfirst⟩
        cases List.mem_cons.mp ha with
        | inl ha => rw [ha]
        | inr ha =>
          cases hfirst c List.mem_cons_self hp with
          | inl heq => rw [heq]
          | inr hbefore => exact absurd hbefore (hc.1 a ha).not_symm
    | false =>
      dsimp only
      rw [ih hc.2]
      constructor
      · rintro ⟨ha, hpa, hfirst⟩
        refine ⟨List.mem_cons_of_mem _ ha, hpa, fun b hb hpb => ?_⟩
        cases List.mem_cons.mp hb with
        | inl hb =>
          rw [hb, hp] at hpb
          cases hpb
        | inr hb => exact hfirst b hb hpb
      · rintro ⟨ha, hpa, hfirst⟩
        refine ⟨?_, hpa, fun b hb hpb => hfirst b (List.mem_cons_of_mem _ hb) hpb⟩
        cases List.mem_cons.mp ha with
        | inl ha =>
          rw [ha, hp] at hpa
          cases hpa
        | inr ha => exact ha

end WanStack.Lib.Queue
