import WanStack.Aftr.StepMoves

set_option autoImplicit false

/-!
# Along a run

What holds in every state of a run, and conditions on its steps.
-/
namespace WanStack.Aftr

/-- Every step of the run meets a condition on the state before it. -/
def EachStep (cfg : Conf) (P : State → Event → Prop) : State → List Event → Prop
  | _, [] => True
  | s, e :: es => P s e ∧ EachStep cfg P (step cfg s e) es

/-- Every state of the run is in `P`, the first and the last one included. -/
def Always (cfg : Conf) (P : State → Prop) : State → List Event → Prop
  | s, [] => P s
  | s, e :: es => P s ∧ Always cfg P (step cfg s e) es

instance decidableEachStep (cfg : Conf) (P : State → Event → Prop) [∀ s e, Decidable (P s e)] :
    (s : State) → (es : List Event) → Decidable (EachStep cfg P s es)
  | _, [] => inferInstanceAs (Decidable True)
  | s, e :: es =>
    have := decidableEachStep cfg P (step cfg s e) es
    inferInstanceAs (Decidable (P s e ∧ EachStep cfg P (step cfg s e) es))

instance decidableAlways (cfg : Conf) (P : State → Prop) [∀ s, Decidable (P s)] :
    (s : State) → (es : List Event) → Decidable (Always cfg P s es)
  | s, [] => inferInstanceAs (Decidable (P s))
  | s, e :: es =>
    have := decidableAlways cfg P (step cfg s e) es
    inferInstanceAs (Decidable (P s ∧ Always cfg P (step cfg s e) es))

/-- All allocations succeed, and the ports are drawn in turn. -/
def plainEnv : NatEnv := { seconds := 0, mem := fun _ => true, draw := fun slot _ => slot }

variable {cfg : Conf} {P Q I : State → Prop} {C : State → Event → Prop} {s : State}
  {es : List Event}

theorem Always.head (h : Always cfg P s es) : P s := by
  cases es with
  | nil => exact h
  | cons e es => exact h.1

theorem Always.last (h : Always cfg P s es) : P (run cfg s es) := by
  induction es generalizing s with
  | nil => exact h
  | cons e es ih => exact ih h.2

theorem Always.imp (h : Always cfg P s es) (hpq : ∀ s, P s → Q s) : Always cfg Q s es := by
  induction es generalizing s with
  | nil => exact hpq s h
  | cons e es ih => exact ⟨hpq s h.1, ih h.2⟩

theorem Always.and (h : Always cfg P s es) (h' : Always cfg Q s es) :
    Always cfg (fun s => P s ∧ Q s) s es := by
  induction es generalizing s with
  | nil => exact ⟨h, h'⟩
  | cons e es ih => exact ⟨⟨h.1, h'.1⟩, ih h.2 h'.2⟩

/-- What a step in good conditions keeps, a run in good conditions keeps. -/
theorem EachStep.always (h : EachStep cfg C s es) (h0 : I s)
    (hstep : ∀ s e, I s → C s e → I (step cfg s e)) : Always cfg I s es := by
  induction es generalizing s with
  | nil => exact h0
  | cons e es ih => exact ⟨h0, ih h.2 (hstep s e h0 h.1)⟩

/-- The same with a condition on the states before and after a step. -/
theorem Always.keep (h : Always cfg P s es) (h0 : I s)
    (hstep : ∀ s e, I s → P s → P (step cfg s e) → I (step cfg s e)) : Always cfg I s es := by
  induction es generalizing s with
  | nil => exact h0
  | cons e es ih => exact ⟨h0, ih h.2 (hstep s e h0 h.1 h.2.head)⟩

/-! ### What holds in every run -/

theorem step_base (hb : Base s) (e : Event) : Base (step cfg s e) :=
  hb.moves (step_moves cfg hb.tuns e)

/-- A step between two states in order keeps the links. -/
theorem step_linked (hl : Linked s) (e : Event) (ho : s.Ordered) (ho' : (step cfg s e).Ordered) :
    Linked (step cfg s e) :=
  hl.moves (step_moves cfg hl.tuns e) ⟨hl, ho⟩ ho ho'

theorem start_known (ports : Ports) (rnd₁ rnd₂ rnd₃ : UInt32) (n : NatEntry) :
    ¬ Known (start ports rnd₁ rnd₂ rnd₃) n := by
  rintro (⟨pr, h⟩ | ⟨k, h⟩ | h | ⟨p, h⟩ | ⟨k, h⟩ | ⟨l, hl, h⟩)
  · change n ∈ ([] : List NatEntry) at h
    simp at h
  · simp [Nats.splay, start] at h
  · simp [start] at h
  · simp [start] at h
  · simp [start] at h
  · rcases mem_chains.mp hl with rfl | ⟨ss, hss, rfl⟩ | ⟨ss, hss, rfl⟩
    · simp [start] at h
    · simp only [start, List.mem_singleton] at hss
      simp [hss] at h
    · simp [start] at hss

theorem linked_start (ports : Ports) (rnd₁ rnd₂ rnd₃ : UInt32) :
    Linked (start ports rnd₁ rnd₂ rnd₃) := by
  have hknown := start_known ports rnd₁ rnd₂ rnd₃
  exact {
    tuns := Tunnels.ok_start rnd₂
    fresh := fun n hn => absurd hn (hknown n)
    flags := fun n hn => absurd hn (hknown n)
    proto := fun pr n hn => absurd (.of_list hn) (hknown n)
    place := fun k n hn => absurd (.of_splay hn) (hknown n)
    nodup := fun pr => List.nodup_nil
    ptrs := fun n hn => absurd (.of_live hn) (hknown n)
    size := Nat.succ_pos _
    live := fun n hn => absurd hn (hknown n)
    splay := fun n hn => absurd (.of_live hn) (hknown n)
    sorted := fun k => List.Pairwise.nil
    owner := fun n hn => absurd (.of_live hn) (hknown n)
    cached := fun h n hn => absurd (.of_nathash hn) (hknown n) }

/-- While the comparison is an order, every state of a run is linked. -/
theorem always_linked {ports : Ports} {rnd₁ rnd₂ rnd₃ : UInt32}
    (h : Always cfg State.Ordered (start ports rnd₁ rnd₂ rnd₃) es) :
    Always cfg Linked (start ports rnd₁ rnd₂ rnd₃) es :=
  h.keep (linked_start ports rnd₁ rnd₂ rnd₃) fun _ e hl ho ho' => step_linked hl e ho ho'

end WanStack.Aftr
