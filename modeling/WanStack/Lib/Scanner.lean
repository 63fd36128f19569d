import Mathlib.Data.List.Basic

set_option autoImplicit false

/-!
# Scanners

A scanner takes the longest match of its rules at every place, and the first rule
of those that match as much; what no rule matches is dropped.
-/
namespace WanStack.Scanner

variable {α τ : Type}

/-- How much of the input a rule matches, and the token of what it matched. -/
structure Rule (α τ : Type) where
  len : List α → Option ℕ
  token : List α → Option τ

def longest (input : List α) : List (Rule α τ) → Option (ℕ × Rule α τ)
  | [] => none
  | r :: rs =>
    match r.len input, longest input rs with
    | none, best => best
    | some n, none => some (n, r)
    | some n, some (m, r') => if n < m then some (m, r') else some (n, r)

/-- A scanner that may go on for `fuel` matches. -/
def scan (rules : List (Rule α τ)) : ℕ → List α → List τ
  | 0, _ => []
  | _, [] => []
  | fuel + 1, c :: cs =>
    match longest (c :: cs) rules with
    | some (n + 1, r) => (r.token (c :: cs.take n)).toList ++ scan rules fuel (cs.drop n)
    | _ => scan rules fuel cs

def lex (rules : List (Rule α τ)) (input : List α) : List τ := scan rules input.length input

section Longest
variable {input : List α} {rules : List (Rule α τ)}

theorem longest_congr {input' : List α} (h : ∀ r ∈ rules, r.len input = r.len input') :
    longest input rules = longest input' rules := by
  induction rules with
  | nil => rfl
  | cons r rs ih =>
    rw [longest, longest, h r List.mem_cons_self, ih fun x hx => h x (List.mem_cons_of_mem _ hx)]

theorem longest_append_none {before : List (Rule α τ)} (h : ∀ r ∈ before, r.len input = none) :
    longest input (before ++ rules) = longest input rules := by
  induction before with
  | nil => rfl
  | cons r rs ih =>
    rw [List.cons_append, longest, h r List.mem_cons_self]
    exact ih fun x hx => h x (List.mem_cons_of_mem _ hx)

theorem longest_cons_congr {rules' : List (Rule α τ)} (r : Rule α τ)
    (h : longest input rules = longest input rules') :
    longest input (r :: rules) = longest input (r :: rules') := by
  rw [longest, longest, h]

theorem longest_le {k : ℕ} (h : ∀ r ∈ rules, ∀ n, r.len input = some n → n ≤ k) {n : ℕ} {r : Rule α τ}
    (hlongest : longest input rules = some (n, r)) : n ≤ k := by
  induction rules generalizing n r with
  | nil => cases hlongest
  | cons x xs ih =>
    have hxs := fun n r => ih (fun y hy => h y (List.mem_cons_of_mem _ hy)) (n := n) (r := r)
    have hx := h x List.mem_cons_self
    rw [longest] at hlongest
    cases hlen : x.len input with
    | none =>
      rw [hlen] at hlongest
      exact hxs n r hlongest
    | some m =>
      rw [hlen] at hlongest
      cases hrest : longest input xs with
      | none =>
        rw [hrest] at hlongest
        obtain ⟨rfl, rfl⟩ := Prod.mk.inj (Option.some.inj hlongest)
        exact hx m hlen
      | some best =>
        rw [hrest] at hlongest
        dsimp only at hlongest
        split at hlongest
        · obtain ⟨rfl, rfl⟩ := Prod.mk.inj (Option.some.inj hlongest)
          exact hxs _ _ hrest
        · obtain ⟨rfl, rfl⟩ := Prod.mk.inj (Option.some.inj hlongest)
          exact hx m hlen

/-- The first rule that matches `k`, when none matches more and none in front of it
    as much. -/
theorem longest_first {k : ℕ} {before after : List (Rule α τ)} {r : Rule α τ}
    (hbefore : ∀ x ∈ before, ∀ n, x.len input = some n → n < k) (hr : r.len input = some k)
    (hafter : ∀ x ∈ after, ∀ n, x.len input = some n → n ≤ k) :
    longest input (before ++ r :: after) = some (k, r) := by
  induction before with
  | nil =>
    rw [List.nil_append, longest, hr]
    cases hrest : longest input after with
    | none => rfl
    | some best =>
      have hle : best.1 ≤ k := longest_le hafter hrest
      dsimp only
      rw [if_neg (Nat.not_lt.mpr hle)]
  | cons x xs ih =>
    rw [List.cons_append, longest, ih fun y hy => hbefore y (List.mem_cons_of_mem _ hy)]
    cases hlen : x.len input with
    | none => rfl
    | some n =>
      dsimp only
      rw [if_pos (hbefore x List.mem_cons_self n hlen)]

end Longest

section Scan
variable (rules : List (Rule α τ))

theorem scan_fuel (n m : ℕ) (input : List α) (hn : input.length ≤ n) (hm : input.length ≤ m) :
    scan rules n input = scan rules m input := by
  induction n generalizing m input with
  | zero =>
    obtain rfl := List.length_eq_zero_iff.mp (Nat.le_zero.mp hn)
    cases m <;> rfl
  | succ n ih =>
    cases input with
    | nil => cases m <;> rfl
    | cons c cs =>
      cases m with
      | zero => exact absurd hm (by simp)
      | succ m =>
        rw [List.length_cons] at hn hm
        have hdrop : ∀ k, (cs.drop k).length ≤ n ∧ (cs.drop k).length ≤ m := by
          intro k
          rw [List.length_drop]
          omega
        rw [scan, scan]
        split
        · next k r _ => rw [ih m (cs.drop k) (hdrop k).1 (hdrop k).2]
        · exact ih m cs (by omega) (by omega)

@[simp] theorem lex_nil : lex rules [] = [] := rfl

/-- A match at the front. -/
theorem lex_match {w rest : List α} {r : Rule α τ} (hw : w ≠ [])
    (h : longest (w ++ rest) rules = some (w.length, r)) :
    lex rules (w ++ rest) = (r.token w).toList ++ lex rules rest := by
  cases w with
  | nil => exact absurd rfl hw
  | cons c cs =>
    unfold lex
    rw [List.cons_append, List.length_cons, scan]
    rw [List.cons_append, List.length_cons] at h
    rw [h]
    dsimp only
    rw [List.take_left, List.drop_left]
    congr 1
    exact scan_fuel rules _ _ rest (by simp) (Nat.le_refl _)

/-- A character that starts no match. -/
theorem lex_drop {c : α} {rest : List α} (h : longest (c :: rest) rules = none) :
    lex rules (c :: rest) = lex rules rest := by
  unfold lex
  rw [List.length_cons, scan, h]

theorem mem_longest {input : List α} {n : ℕ} {r : Rule α τ} (h : longest input rules = some (n, r)) :
    r ∈ rules := by
  induction rules generalizing n r with
  | nil => cases h
  | cons x xs ih =>
    rw [longest] at h
    cases hlen : x.len input with
    | none =>
      rw [hlen] at h
      exact List.mem_cons_of_mem _ (ih h)
    | some m =>
      rw [hlen] at h
      cases hrest : longest input xs with
      | none =>
        rw [hrest] at h
        obtain ⟨rfl, rfl⟩ := Prod.mk.inj (Option.some.inj h)
        exact List.mem_cons_self
      | some best =>
        rw [hrest] at h
        dsimp only at h
        split at h
        · obtain ⟨rfl, rfl⟩ := Prod.mk.inj (Option.some.inj h)
          exact List.mem_cons_of_mem _ (ih hrest)
        · obtain ⟨rfl, rfl⟩ := Prod.mk.inj (Option.some.inj h)
          exact List.mem_cons_self

/-- Every token is one that a rule makes. -/
theorem lex_forall {P : τ → Prop} (hrules : ∀ r ∈ rules, ∀ w t, r.token w = some t → P t)
    (input : List α) : ∀ t ∈ lex rules input, P t := by
  unfold lex
  generalize input.length = fuel
  induction fuel generalizing input with
  | zero => simp [scan]
  | succ fuel ih =>
    cases input with
    | nil => simp [scan]
    | cons c cs =>
      rw [scan]
      split
      · next n r hlongest =>
        intro t ht
        rcases List.mem_append.mp ht with ht | ht
        · exact hrules r (mem_longest rules hlongest) _ t (Option.mem_toList.mp ht)
        · exact ih _ t ht
      · exact ih cs

end Scan

end WanStack.Scanner
