import Mathlib.Data.Int.Init
import Mathlib.Tactic.Common

set_option autoImplicit false

/-!
# Edits of a stream

Texts of a stream give way to others of another length. What follows an edit moves by
the total change up to it. Edits stand in a list with the last one first.
-/
namespace WanStack.StreamEdits

/-- `old` bytes from position `start` on give way to `new` bytes. -/
structure Edit where
  start : ℤ
  old : ℕ
  new : ℕ
deriving DecidableEq

def Edit.fin (e : Edit) : ℤ := e.start + e.old

def Edit.change (e : Edit) : ℤ := e.new - e.old

def total : List Edit → ℤ
  | [] => 0
  | e :: es => e.change + total es

/-- Where the stream after the edits has the end of the last one. -/
def newFin (e : Edit) (es : List Edit) : ℤ := e.fin + total (e :: es)

/-- The total change at the last edit whose boundary is not behind `x`. -/
def pick (boundary : Edit → List Edit → ℤ) (x : ℤ) : List Edit → ℤ
  | [] => 0
  | e :: es => if boundary e es ≤ x then total (e :: es) else pick boundary x es

/-- How far a position moves. -/
def shiftAt (s : ℤ) (es : List Edit) : ℤ := pick (fun e _ => e.fin) s es

/-- How far a position of the edited stream was moved. -/
def unshift (a : ℤ) (es : List Edit) : ℤ := pick newFin a es

def Ordered : List Edit → Prop
  | [] => True
  | e :: es => (∀ f ∈ es, f.fin ≤ e.start) ∧ Ordered es

/-- Positions that are not inside of a text that gives way. -/
def Outside (s : ℤ) (es : List Edit) : Prop := ∀ e ∈ es, s ≤ e.start ∨ e.fin ≤ s

variable {e : Edit} {es : List Edit} {s t : ℤ}

theorem newFin_eq (e : Edit) (es : List Edit) : newFin e es = e.start + total es + e.new := by
  simp only [newFin, total, Edit.fin, Edit.change]
  omega

theorem start_le_fin (e : Edit) : e.start ≤ e.fin := by
  unfold Edit.fin
  omega

theorem shiftAt_of_fin_le (h : e.fin ≤ s) : shiftAt s (e :: es) = total (e :: es) := if_pos h

theorem shiftAt_of_lt (h : ¬e.fin ≤ s) : shiftAt s (e :: es) = shiftAt s es := if_neg h

theorem shiftAt_behind (h : ∀ e ∈ es, e.fin ≤ s) : shiftAt s es = total es := by
  cases es with
  | nil => rfl
  | cons e es => exact shiftAt_of_fin_le (h e List.mem_cons_self)

/-- A position before the end `t` of the stream stays before it. -/
theorem shifted_le (ho : Ordered es) (hs : Outside s es) (hst : s ≤ t) (ht : ∀ e ∈ es, e.fin ≤ t) :
    s + shiftAt s es ≤ t + total es := by
  induction es generalizing t with
  | nil => exact Int.add_le_add_right hst 0
  | cons e es ih =>
    have hfin := ht e List.mem_cons_self
    by_cases h : e.fin ≤ s
    · rw [shiftAt_of_fin_le h]
      exact Int.add_le_add_right hst _
    · rw [shiftAt_of_lt h]
      have hle : s ≤ e.start := (hs e List.mem_cons_self).resolve_right h
      have hrest := ih ho.2 (fun f hf => hs f (List.mem_cons_of_mem e hf)) hle ho.1
      have hnew := newFin_eq e es
      unfold newFin at hnew
      omega

/-- Both directions agree on the positions that are still there. -/
theorem unshift_shifted (ho : Ordered es) (hnew : ∀ e ∈ es, 0 < e.new) (hs : Outside s es) :
    unshift (s + shiftAt s es) es = shiftAt s es := by
  induction es with
  | nil => rfl
  | cons e es ih =>
    have hrest : Outside s es := fun f hf => hs f (List.mem_cons_of_mem e hf)
    by_cases h : e.fin ≤ s
    · rw [shiftAt_of_fin_le h]
      exact if_pos (Int.add_le_add_right h _)
    · have hle : s ≤ e.start := (hs e List.mem_cons_self).resolve_right h
      have hbefore := shifted_le ho.2 hrest hle ho.1
      have hpos := hnew e List.mem_cons_self
      have hfin := newFin_eq e es
      rw [shiftAt_of_lt h]
      have hnot : ¬newFin e es ≤ s + shiftAt s es := by omega
      calc
        unshift (s + shiftAt s es) (e :: es) = unshift (s + shiftAt s es) es := if_neg hnot
        _ = shiftAt s es := ih ho.2 (fun f hf => hnew f (List.mem_cons_of_mem e hf)) hrest

/-- What an edit moved does not change with the edits after it. -/
theorem shiftAt_start {later : List Edit} (ho : Ordered (later ++ e :: es)) (hold : 0 < e.old) :
    shiftAt e.start (later ++ e :: es) = total es := by
  induction later with
  | nil =>
    have hlt : ¬e.fin ≤ e.start := by
      unfold Edit.fin
      omega
    rw [List.nil_append, shiftAt_of_lt hlt]
    exact shiftAt_behind ho.1
  | cons f later ih =>
    have hfirst : e.fin ≤ f.start := ho.1 e (by simp)
    have hlt : ¬f.fin ≤ e.start := by
      have := start_le_fin f
      unfold Edit.fin at *
      omega
    rw [List.cons_append, shiftAt_of_lt hlt]
    exact ih ho.2

end WanStack.StreamEdits
