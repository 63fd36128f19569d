import Mathlib.Logic.Relation
import Mathlib.Tactic.MkIffOfInductiveProp
import Mathlib.Tactic.SplitIfs
import WanStack.Radvd.Radvdump

set_option autoImplicit false

/-!
# What the parsers read

The options that `process_ra` and `print_ff` come to, the labels of a suffix
list, and when all that is read of them is there.
-/
namespace WanStack.Radvd
open Aftr (Buf byteAt bytesAt shortAt)
open Lib.Walk Relation

/-! ### The options of a message -/

/-- An option that is there as far as its length byte says. -/
def Announced (opt : Buf) : Prop := 2 ≤ opt.length ∧ 0 < optlenOf opt ∧ optlenOf opt ≤ opt.length

instance : DecidablePred Announced := fun opt => by unfold Announced; infer_instance

def nextOption (opt : Buf) : Option ℕ := if Announced opt then some (optlenOf opt) else none

/-- `process_ra` returns at a prefix information and at an RDNSS option when less
    is left of the message than the structure has. -/
def RaReturns (opt : Buf) : Prop :=
  byteAt opt 0 = ND_OPT_PREFIX_INFORMATION ∧ opt.length < 32 ∨
    byteAt opt 0 = ND_OPT_RDNSS_INFORMATION ∧ opt.length < 56

instance : DecidablePred RaReturns := fun opt => by unfold RaReturns; infer_instance

def raNext (opt : Buf) : Option ℕ := if RaReturns opt then none else nextOption opt

/-- The options of a message, each with all that follows it. -/
def optionsOf (next : Buf → Option ℕ) (msg : Buf) : List Buf :=
  (walk next (msg.drop raHeaderLen)).getD []

theorem advances_nextOption : Advances nextOption := by
  intro opt n hn
  unfold nextOption at hn
  split at hn
  · next h =>
    obtain rfl := Option.some.inj hn
    exact h.2.1
  · exact absurd hn (by simp)

theorem advances_raNext : Advances raNext := by
  intro opt n hn
  unfold raNext at hn
  split at hn
  · exact absurd hn (by simp)
  · exact advances_nextOption opt n hn

theorem walk_optionsOf {next : Buf → Option ℕ} (h : Advances next) (msg : Buf) :
    walk next (msg.drop raHeaderLen) = some (optionsOf next msg) := by
  obtain ⟨rs, hrs⟩ := walk_total h (msg.drop raHeaderLen)
  rw [optionsOf, hrs]
  rfl

/-! ### The labels of a suffix list -/

/-- Where a loop over the labels is, and how long the suffix is so far. -/
structure Cursor where
  offset : ℕ
  size : ℕ

section Labels
variable (opt : Buf)

def Cursor.labelLen (c : Cursor) : ℕ := (byteAt opt (8 + c.offset)).toNat

/-- What follows the length of the label. -/
def Cursor.src (c : Cursor) : Buf := opt.drop (8 + (c.offset + 1))

/-- The labels that a loop stops at, and how long the suffix is behind one. -/
structure LabelLoop where
  oversized : Cursor → Prop
  size : Cursor → ℕ

/-- In `process_ra` a suffix is lost after each label. -/
def raLabels : LabelLoop where
  oversized c := 256 < c.labelLen opt + 2 ∨ opt.length ≤ 8 + (c.offset + 1) + c.labelLen opt
  size _ := 0

def dumpLabels : LabelLoop where
  oversized c := 256 - c.size < c.labelLen opt + 2
  size c := c.size + (if c.size ≠ 0 then 1 else 0) + (strncatText (c.src opt) (c.labelLen opt)).length

variable (loop : LabelLoop) (limit : ℕ)

/-- A round of the loop that goes on. -/
def Goes (c d : Cursor) : Prop :=
  c.offset < limit ∧
    (c.labelLen opt = 0 ∧ d = ⟨c.offset + 1, 0⟩ ∨
      c.labelLen opt ≠ 0 ∧ ¬ loop.oversized c ∧ d = ⟨c.offset + 1 + c.labelLen opt, loop.size c⟩)

/-- What `strncat` looks at lies in front of the limit. -/
def Fits (c : Cursor) : Prop :=
  c.offset < limit → c.labelLen opt ≠ 0 → ¬ loop.oversized c →
    c.offset + 1 + strncatReads (c.src opt) (c.labelLen opt) ≤ limit

/-- Every label that the loop comes to from `c` fits. -/
def LabelsFit (c : Cursor) : Prop := ∀ d, ReflTransGen (Goes opt loop limit) c d → Fits opt loop limit d

variable {opt loop limit} {c : Cursor}

theorem labelsFit_iff : LabelsFit opt loop limit c ↔
    Fits opt loop limit c ∧ ∀ d, Goes opt loop limit c d → LabelsFit opt loop limit d := by
  constructor
  · intro h
    exact ⟨h c .refl, fun d hcd e hde => h e (.head hcd hde)⟩
  · rintro ⟨hc, hnext⟩ e hce
    rcases hce.cases_head with rfl | ⟨d, hcd, hde⟩
    · exact hc
    · exact hnext d hcd e hde

theorem labelsFit_done (h : limit ≤ c.offset) : LabelsFit opt loop limit c := by
  rw [labelsFit_iff]
  exact ⟨fun hlt => absurd hlt (Nat.not_lt.mpr h), fun d hgo => absurd hgo.1 (Nat.not_lt.mpr h)⟩

theorem labelsFit_zero (h : c.offset < limit) (hzero : c.labelLen opt = 0) :
    LabelsFit opt loop limit c ↔ LabelsFit opt loop limit ⟨c.offset + 1, 0⟩ := by
  rw [labelsFit_iff]
  constructor
  · rintro ⟨-, hnext⟩
    exact hnext _ ⟨h, Or.inl ⟨hzero, rfl⟩⟩
  · intro hrest
    refine ⟨fun _ hne => absurd hzero hne, ?_⟩
    rintro d ⟨-, ⟨-, rfl⟩ | ⟨hne, -⟩⟩
    · exact hrest
    · exact absurd hzero hne

theorem labelsFit_oversized (hne : c.labelLen opt ≠ 0) (hover : loop.oversized c) :
    LabelsFit opt loop limit c := by
  rw [labelsFit_iff]
  refine ⟨fun _ _ hnot => absurd hover hnot, ?_⟩
  rintro d ⟨-, ⟨hzero, -⟩ | ⟨-, hnot, -⟩⟩
  · exact absurd hzero hne
  · exact absurd hover hnot

theorem labelsFit_label (h : c.offset < limit) (hne : c.labelLen opt ≠ 0)
    (hnot : ¬ loop.oversized c) :
    LabelsFit opt loop limit c ↔
      c.offset + 1 + strncatReads (c.src opt) (c.labelLen opt) ≤ limit ∧
        LabelsFit opt loop limit ⟨c.offset + 1 + c.labelLen opt, loop.size c⟩ := by
  rw [labelsFit_iff]
  constructor
  · rintro ⟨hfits, hnext⟩
    exact ⟨hfits h hne hnot, hnext _ ⟨h, Or.inr ⟨hne, hnot, rfl⟩⟩⟩
  · rintro ⟨hfits, hrest⟩
    refine ⟨fun _ _ _ => hfits, ?_⟩
    rintro d ⟨-, ⟨hzero, -⟩ | ⟨-, -, rfl⟩⟩
    · exact absurd hzero hne
    · exact hrest

end Labels

/-! ### Acts that stay inside -/

/-- What is read lies in the message, a label also in its option, and an address
    has room for what is copied to it. -/
def Act.Safe {ρ : Type} : Act ρ → Prop
  | .read off n left => off + n ≤ left
  | .label off n stop left => off + n ≤ left ∧ off + n ≤ stop
  | .copy n => n ≤ 16
  | .emit _ => True
  | .stuck => False

def AllSafe {ρ : Type} (acts : List (Act ρ)) : Prop := ∀ a ∈ acts, a.Safe

section Safe
variable {ρ : Type}

@[simp] theorem allSafe_nil : AllSafe ([] : List (Act ρ)) := by
  intro a ha
  exact absurd ha List.not_mem_nil

@[simp] theorem allSafe_cons (a : Act ρ) (acts : List (Act ρ)) :
    AllSafe (a :: acts) ↔ a.Safe ∧ AllSafe acts := List.forall_mem_cons

@[simp] theorem allSafe_append (acts more : List (Act ρ)) :
    AllSafe (acts ++ more) ↔ AllSafe acts ∧ AllSafe more := List.forall_mem_append

theorem allSafe_flatMap {α : Type} (f : α → List (Act ρ)) (xs : List α) :
    AllSafe (xs.flatMap f) ↔ ∀ x ∈ xs, AllSafe (f x) := by
  unfold AllSafe
  constructor
  · intro h x hx a ha
    exact h a (List.mem_flatMap.mpr ⟨x, hx, ha⟩)
  · intro h a ha
    obtain ⟨x, hx, ha⟩ := List.mem_flatMap.mp ha
    exact h x hx a ha

@[simp] theorem safe_read (off n left : ℕ) : (Act.read off n left : Act ρ).Safe ↔ off + n ≤ left :=
  Iff.rfl

@[simp] theorem safe_label (off n stop left : ℕ) :
    (Act.label off n stop left : Act ρ).Safe ↔ off + n ≤ left ∧ off + n ≤ stop := Iff.rfl

@[simp] theorem safe_copy (n : ℕ) : (Act.copy n : Act ρ).Safe ↔ n ≤ 16 := Iff.rfl

@[simp] theorem safe_emit (r : ρ) : (Act.emit r).Safe := trivial

@[simp] theorem allSafe_reportIf (c : Bool) (r : Report) : AllSafe (reportIf c r) := by
  unfold reportIf
  split <;> simp

@[simp] theorem allSafe_lineIf (edefs differs : Bool) (l : Line) : AllSafe (lineIf edefs differs l) := by
  unfold lineIf
  split <;> simp

@[simp] theorem allSafe_dumpLifetime (edefs : Bool) (dflt n : ℕ) (line : ℕ → Line) :
    AllSafe (dumpLifetime edefs dflt n line) := by
  unfold dumpLifetime
  split <;> simp

end Safe

/-! ### `process_ra` -/

section ProcessRa
variable (iface : Interface) (opt : Buf)

theorem raMtu_inside (h : 8 ≤ opt.length) :
    (raMtu iface opt).2 = true ∧ AllSafe (raMtu iface opt).1 := by
  rw [raMtu, if_neg (Nat.not_lt.mpr h)]
  simpa using h

theorem raPrefix_inside (h : 32 ≤ opt.length) :
    (raPrefix iface opt).2 = true ∧ AllSafe (raPrefix iface opt).1 := by
  rw [raPrefix, if_neg (Nat.not_lt.mpr h)]
  have hpres : ∀ p ∈ iface.AdvPrefixList, AllSafe (raPrefixActs opt p) := by
    intro p _
    unfold raPrefixActs
    split
    · split
      · simp
        omega
      · simp
        omega
    · simp
      omega
  simp only [allSafe_append, allSafe_cons, safe_read, allSafe_nil, allSafe_flatMap]
  exact ⟨trivial, ⟨by omega, by omega, trivial⟩, hpres⟩

theorem raRdnssAddr_safe (off : ℕ) (h : off + 16 ≤ opt.length) :
    AllSafe (raRdnssAddr iface opt off) := by
  simpa [raRdnssAddr] using h

theorem raRdnss_inside (h : 56 ≤ opt.length) :
    (raRdnss iface opt).2 = true ∧ AllSafe (raRdnss iface opt).1 := by
  rw [raRdnss, if_neg (Nat.not_lt.mpr h)]
  have h1 := raRdnssAddr_safe iface opt 8 (by omega)
  have h2 := raRdnssAddr_safe iface opt 24 (by omega)
  have h3 := raRdnssAddr_safe iface opt 40 (by omega)
  refine ⟨rfl, ?_⟩
  simp only [allSafe_cons, safe_read]
  refine ⟨by omega, ?_⟩
  split
  · simpa using ⟨h3, h2, h1⟩
  · split
    · simpa using ⟨h2, h1⟩
    · split
      · exact h1
      · simp

/-- The loop never leaves the message, as the option is in it; the induction is
    on the fuel, of which every round takes one and goes on by one byte or more. -/
theorem raDnsslLoop_inside (limit : ℕ) (h : 8 + limit ≤ opt.length) (k offset : ℕ)
    (hk : limit ≤ offset + k) :
    (raDnsslLoop iface opt limit k offset).2 = true ∧
      (AllSafe (raDnsslLoop iface opt limit k offset).1 ↔
        LabelsFit opt (raLabels opt) limit ⟨offset, 0⟩) := by
  induction k generalizing offset with
  | zero =>
    rw [raDnsslLoop, if_pos (by omega)]
    exact ⟨rfl, iff_of_true allSafe_nil (labelsFit_done (by simpa using hk))⟩
  | succ k ih =>
    rw [raDnsslLoop]
    by_cases hdone : limit ≤ offset
    · rw [if_pos hdone]
      exact ⟨rfl, iff_of_true allSafe_nil (labelsFit_done hdone)⟩
    rw [if_neg hdone]
    have hlt : (Cursor.mk offset 0).offset < limit := Nat.not_le.mp hdone
    have hread : 8 + offset + 1 ≤ opt.length := by
      change offset < limit at hlt
      omega
    have hleft : ¬ opt.length ≤ 8 + offset := by omega
    simp only [hleft, if_false, if_true]
    by_cases hzero : (byteAt opt (8 + offset)).toNat = 0
    · obtain ⟨hgoes, hsafe⟩ := ih (offset + 1) (by omega)
      rw [if_pos hzero, labelsFit_zero hlt hzero, ← hsafe]
      refine ⟨hgoes, ?_⟩
      simp [Outcome.after, hread]
    rw [if_neg hzero]
    by_cases hover : 256 - ([] : Buf).length < (byteAt opt (8 + offset)).toNat + 2 ∨
        opt.length ≤ 8 + (offset + 1) + (byteAt opt (8 + offset)).toNat
    · rw [if_pos hover]
      refine ⟨rfl, iff_of_true ?_ (labelsFit_oversized hzero hover)⟩
      simp [hread]
    · obtain ⟨hgoes, hsafe⟩ := ih (offset + 1 + (byteAt opt (8 + offset)).toNat) (by omega)
      rw [if_neg hover, labelsFit_label hlt hzero hover]
      refine ⟨hgoes, ?_⟩
      simp only [Outcome.after, allSafe_append, allSafe_cons, safe_read, safe_label, allSafe_nil,
        hsafe, raLabels, Cursor.labelLen, Cursor.src]
      constructor
      · rintro ⟨⟨-, ⟨-, hstop⟩, -⟩, hrest⟩
        exact ⟨by omega, hrest⟩
      · rintro ⟨hstop, hrest⟩
        exact ⟨⟨hread, ⟨by omega, by omega⟩, trivial⟩, hrest⟩

def RaLabelsFit (opt : Buf) : Prop := LabelsFit opt (raLabels opt) (dnsslLimit opt) ⟨0, 0⟩

def DumpLabelsFit (opt : Buf) : Prop := LabelsFit opt (dumpLabels opt) (dnsslLimit opt) ⟨0, 0⟩

theorem Announced.eight {opt : Buf} (h : Announced opt) : 8 ≤ opt.length := by
  obtain ⟨-, hpos, hle⟩ := h
  unfold optlenOf at hpos hle
  omega

theorem Announced.limit {opt : Buf} (h : Announced opt) : 8 + dnsslLimit opt = optlenOf opt := by
  obtain ⟨-, hpos, -⟩ := h
  unfold optlenOf dnsslLimit at *
  omega

theorem raDnssl_inside (h : Announced opt) :
    (raDnssl iface opt).2 = true ∧ (AllSafe (raDnssl iface opt).1 ↔ RaLabelsFit opt) := by
  have hlimit := h.limit
  have height := h.eight
  obtain ⟨-, -, hle⟩ := h
  rw [raDnssl, if_neg (Nat.not_lt.mpr height)]
  obtain ⟨hgoes, hsafe⟩ := raDnsslLoop_inside iface opt (dnsslLimit opt) (by omega)
    (dnsslLimit opt) 0 (Nat.le_add_left _ _)
  refine ⟨hgoes, ?_⟩
  rw [RaLabelsFit, ← hsafe]
  simp only [Outcome.after, allSafe_append, allSafe_cons, safe_read, allSafe_nil]
  exact ⟨fun hboth => hboth.2, fun hfit => ⟨⟨by omega, trivial⟩, hfit⟩⟩

/-- The options of which nothing is read. -/
theorem raOption_unread (hmtu : byteAt opt 0 ≠ ND_OPT_MTU)
    (hpre : byteAt opt 0 ≠ ND_OPT_PREFIX_INFORMATION)
    (hrdnss : byteAt opt 0 ≠ ND_OPT_RDNSS_INFORMATION)
    (hdnssl : byteAt opt 0 ≠ ND_OPT_DNSSL_INFORMATION) :
    (raOption iface opt).2 = true ∧ AllSafe (raOption iface opt).1 := by
  unfold raOption
  simp only [hmtu, hpre, hrdnss, hdnssl, if_false]
  split_ifs <;> simp

/-- The switch of `process_ra`. -/
theorem raOption_inside (h : Announced opt) :
    ((raOption iface opt).2 = false ↔ RaReturns opt) ∧
      (AllSafe (raOption iface opt).1 ↔
        (byteAt opt 0 = ND_OPT_DNSSL_INFORMATION → RaLabelsFit opt)) := by
  unfold RaReturns
  by_cases hmtu : byteAt opt 0 = ND_OPT_MTU
  · have hswitch : raOption iface opt = raMtu iface opt := if_pos hmtu
    obtain ⟨hgoes, hsafe⟩ := raMtu_inside iface opt h.eight
    rw [hswitch, hgoes, hmtu]
    simp [hsafe, ND_OPT_MTU, ND_OPT_PREFIX_INFORMATION, ND_OPT_RDNSS_INFORMATION,
      ND_OPT_DNSSL_INFORMATION]
  by_cases hpre : byteAt opt 0 = ND_OPT_PREFIX_INFORMATION
  · have hswitch : raOption iface opt = raPrefix iface opt := by
      unfold raOption
      rw [hpre]
      rfl
    rw [hswitch, hpre]
    by_cases hlen : 32 ≤ opt.length
    · obtain ⟨hgoes, hsafe⟩ := raPrefix_inside iface opt hlen
      simp [hgoes, hsafe, hlen, ND_OPT_PREFIX_INFORMATION, ND_OPT_RDNSS_INFORMATION,
        ND_OPT_DNSSL_INFORMATION]
    · rw [raPrefix, if_pos (Nat.not_le.mp hlen)]
      simp [Nat.not_le.mp hlen, ND_OPT_PREFIX_INFORMATION, ND_OPT_DNSSL_INFORMATION]
  by_cases hrdnss : byteAt opt 0 = ND_OPT_RDNSS_INFORMATION
  · have hswitch : raOption iface opt = raRdnss iface opt := by
      unfold raOption
      rw [hrdnss]
      rfl
    rw [hswitch, hrdnss]
    by_cases hlen : 56 ≤ opt.length
    · obtain ⟨hgoes, hsafe⟩ := raRdnss_inside iface opt hlen
      simp [hgoes, hsafe, hlen, ND_OPT_PREFIX_INFORMATION, ND_OPT_RDNSS_INFORMATION,
        ND_OPT_DNSSL_INFORMATION]
    · rw [raRdnss, if_pos (Nat.not_le.mp hlen)]
      simp [Nat.not_le.mp hlen, ND_OPT_RDNSS_INFORMATION, ND_OPT_DNSSL_INFORMATION]
  by_cases hdnssl : byteAt opt 0 = ND_OPT_DNSSL_INFORMATION
  · have hswitch : raOption iface opt = raDnssl iface opt := by
      unfold raOption
      rw [hdnssl]
      rfl
    obtain ⟨hgoes, hsafe⟩ := raDnssl_inside iface opt h
    rw [hswitch, hgoes, hsafe, hdnssl]
    simp [ND_OPT_PREFIX_INFORMATION, ND_OPT_RDNSS_INFORMATION, ND_OPT_DNSSL_INFORMATION]
  · obtain ⟨hgoes, hsafe⟩ := raOption_unread iface opt hmtu hpre hrdnss hdnssl
    simp [hgoes, hsafe, hpre, hrdnss, hdnssl]

variable {opt} in
theorem raRound_announced (h : Announced opt) : raRound iface opt =
    (.read 1 1 opt.length :: .read 0 1 opt.length :: (raOption iface opt).1,
      if (raOption iface opt).2 then some (optlenOf opt) else none) := by
  obtain ⟨htwo, hpos, hle⟩ := h
  rw [raRound, if_neg (Nat.not_lt.mpr htwo), if_neg (Nat.pos_iff_ne_zero.mp hpos),
    if_neg (Nat.not_lt.mpr hle)]

variable {opt} in
theorem raRound_broken (h : ¬ Announced opt) :
    (raRound iface opt).2 = none ∧ AllSafe (raRound iface opt).1 := by
  unfold Announced at h
  unfold raRound
  by_cases htwo : opt.length < 2
  · rw [if_pos htwo]
    exact ⟨rfl, by simp⟩
  have hread : 2 ≤ opt.length := Nat.not_lt.mp htwo
  rw [if_neg htwo]
  by_cases hzero : optlenOf opt = 0
  · rw [if_pos hzero]
    exact ⟨rfl, by simpa using hread⟩
  · rw [if_neg hzero, if_pos (by omega)]
    exact ⟨rfl, by simpa using hread⟩

/-- A round of the loop over the options. -/
theorem raRound_inside : (raRound iface opt).2 = raNext opt ∧
    (AllSafe (raRound iface opt).1 ↔
      (Announced opt → byteAt opt 0 = ND_OPT_DNSSL_INFORMATION → RaLabelsFit opt)) := by
  unfold raNext nextOption
  by_cases h : Announced opt
  · obtain ⟨hreturns, hsafe⟩ := raOption_inside iface opt h
    have htwo := h.1
    rw [raRound_announced iface h, if_pos h]
    constructor
    · by_cases hret : RaReturns opt
      · rw [if_pos hret, hreturns.mpr hret]
        rfl
      · rw [if_neg hret]
        exact if_pos (by simpa using mt hreturns.mp hret)
    · simp only [allSafe_cons, safe_read, hsafe]
      exact ⟨fun hall _ => hall.2.2, fun hfit => ⟨by omega, by omega, hfit h⟩⟩
  · obtain ⟨hstops, hsafe⟩ := raRound_broken iface h
    rw [if_neg h, ite_self]
    exact ⟨hstops, iff_of_true hsafe fun hannounced => absurd hannounced h⟩

end ProcessRa

/-- The rounds of `process_ra`, for every message and configuration. -/
theorem raRounds_eq (iface : Interface) (opts : Buf) : raRounds iface opts = walk raNext opts := by
  have hnext : (fun opt => (raRound iface opt).2) = raNext := by
    funext opt
    exact (raRound_inside iface opt).1
  rw [raRounds, hnext]

theorem processRa_eq (iface : Interface) (msg : Buf) :
    processRa iface msg = some (raHeaderActs iface msg ++
      (optionsOf raNext msg).flatMap fun opt => (raRound iface opt).1) := by
  rw [processRa, raRounds_eq, walk_optionsOf advances_raNext]
  rfl

/-! ### `print_ff` -/

section PrintFf
variable (switch : Buf → List (Act Line)) {opt : Buf}

theorem dumpRound_announced (h : Announced opt) : dumpRound switch opt =
    (.read 1 1 opt.length :: .read 0 1 opt.length :: switch opt, some (optlenOf opt)) := by
  obtain ⟨htwo, hpos, hle⟩ := h
  rw [dumpRound, if_neg (Nat.not_lt.mpr htwo), if_neg (Nat.pos_iff_ne_zero.mp hpos),
    if_neg (Nat.not_lt.mpr hle)]

theorem dumpRound_broken (h : ¬ Announced opt) :
    (dumpRound switch opt).2 = none ∧ AllSafe (dumpRound switch opt).1 := by
  unfold Announced at h
  unfold dumpRound
  by_cases htwo : opt.length < 2
  · rw [if_pos htwo]
    exact ⟨rfl, by simp⟩
  have hread : 2 ≤ opt.length := Nat.not_lt.mp htwo
  rw [if_neg htwo]
  by_cases hzero : optlenOf opt = 0
  · rw [if_pos hzero]
    exact ⟨rfl, by simpa using hread⟩
  · rw [if_neg hzero, if_pos (by omega)]
    refine ⟨rfl, ?_⟩
    simp
    omega

theorem dumpRound_next (opt : Buf) : (dumpRound switch opt).2 = nextOption opt := by
  unfold nextOption
  by_cases h : Announced opt
  · rw [dumpRound_announced switch h, if_pos h]
  · rw [(dumpRound_broken switch h).1, if_neg h]

theorem dumpRound_safe (opt : Buf) :
    AllSafe (dumpRound switch opt).1 ↔ (Announced opt → AllSafe (switch opt)) := by
  by_cases h : Announced opt
  · have htwo := h.1
    rw [dumpRound_announced switch h]
    simp only [allSafe_cons, safe_read]
    exact ⟨fun hall _ => hall.2.2, fun hall => ⟨by omega, by omega, hall h⟩⟩
  · exact iff_of_true (dumpRound_broken switch h).2 fun hannounced => absurd hannounced h

theorem dumpLoop_eq (msg : Buf) : dumpLoop switch (msg.drop raHeaderLen) =
    some ((optionsOf nextOption msg).flatMap fun opt => (dumpRound switch opt).1) := by
  have hnext : (fun opt => (dumpRound switch opt).2) = nextOption := by
    funext opt
    exact dumpRound_next switch opt
  rw [dumpLoop, hnext, walk_optionsOf advances_nextOption]
  rfl

end PrintFf

theorem dumpHeader_safe (edefs : Bool) (msg : Buf) : AllSafe (dumpHeader edefs msg) := by
  simp [dumpHeader]

theorem dumpSingle_safe (edefs : Bool) {opt : Buf} (h : Announced opt) :
    AllSafe (dumpSingle edefs opt) := by
  have height := h.eight
  unfold dumpSingle
  dsimp only
  split_ifs
  · simpa [dumpMtu] using height
  · simp
  · simp
  · simp [dumpHomeAgentInfo, height]
  · simp
  · simp
  · simp

theorem dumpPrefix_safe (edefs : Bool) (opt : Buf) :
    AllSafe (dumpPrefix edefs opt) ↔ 32 ≤ opt.length := by
  simp [dumpPrefix]
  omega

/-- The copy of a route's prefix is as long as the length byte says. -/
theorem dumpRoute_safe (edefs : Bool) (msg : Buf) {opt : Buf} (h : Announced opt) :
    AllSafe (dumpRoute edefs msg opt) ↔ (byteAt opt 1).toNat ≤ 3 := by
  have height := h.eight
  obtain ⟨-, hpos, hle⟩ := h
  unfold optlenOf at hpos hle
  unfold dumpRoute optlenOf
  by_cases hshort : (byteAt opt 1).toNat * 8 = 8
  · have hone : (byteAt opt 1).toNat = 1 := by omega
    simp [hone, height]
  · have hmany : 1 < (byteAt opt 1).toNat := by omega
    simp [hshort, hmany]
    omega

theorem dumpAddress_safe (opt : Buf) (off : ℕ) :
    AllSafe (dumpAddress opt off) ↔ off + 16 ≤ opt.length := by
  simp [dumpAddress]

theorem dumpRdnss_safe {opt : Buf} (h : Announced opt) :
    AllSafe (dumpRdnss opt) ↔ 24 ≤ opt.length := by
  have height := h.eight
  obtain ⟨-, hpos, hle⟩ := h
  unfold optlenOf at hpos hle
  have hsecond : AllSafe (if 5 ≤ (byteAt opt 1).toNat then dumpAddress opt 24 else []) := by
    split
    · rw [dumpAddress_safe]
      omega
    · exact allSafe_nil
  have hthird : AllSafe (if 7 ≤ (byteAt opt 1).toNat then dumpAddress opt 40 else []) := by
    split
    · rw [dumpAddress_safe]
      omega
    · exact allSafe_nil
  simp only [dumpRdnss, List.cons_append, allSafe_cons, allSafe_append, dumpAddress_safe, hsecond,
    hthird, safe_emit, safe_read, allSafe_nil, true_and, and_true]
  omega

/-- The loop over the labels, as in `raDnsslLoop_inside`. -/
theorem dumpDnsslLoop_safe (opt : Buf) (limit : ℕ) (h : 8 + limit ≤ opt.length) (k offset : ℕ)
    (hk : limit ≤ offset + k) (suffix : Buf) :
    AllSafe (dumpDnsslLoop opt limit k offset suffix) ↔
      LabelsFit opt (dumpLabels opt) limit ⟨offset, suffix.length⟩ := by
  induction k generalizing offset suffix with
  | zero =>
    rw [dumpDnsslLoop, if_pos (by omega)]
    exact iff_of_true allSafe_nil (labelsFit_done (by simpa using hk))
  | succ k ih =>
    rw [dumpDnsslLoop]
    by_cases hdone : limit ≤ offset
    · rw [if_pos hdone]
      exact iff_of_true allSafe_nil (labelsFit_done hdone)
    rw [if_neg hdone]
    have hlt : (Cursor.mk offset suffix.length).offset < limit := Nat.not_le.mp hdone
    have hread : 8 + offset + 1 ≤ opt.length := by
      change offset < limit at hlt
      omega
    dsimp only
    by_cases hzero : (byteAt opt (8 + offset)).toNat = 0
    · rw [if_pos hzero, labelsFit_zero hlt hzero]
      have hrest := ih (offset + 1) (by omega)
      by_cases hnil : suffix = []
      · rw [if_pos hnil, hnil, allSafe_cons, hrest]
        exact and_iff_right hread
      · rw [if_neg hnil, allSafe_cons, allSafe_cons, hrest]
        simp [hread]
    rw [if_neg hzero]
    by_cases hover : 256 - suffix.length < (byteAt opt (8 + offset)).toNat + 2
    · rw [if_pos hover]
      refine iff_of_true ?_ (labelsFit_oversized hzero hover)
      simp [hread]
    · rw [if_neg hover, labelsFit_label hlt hzero hover, allSafe_cons, allSafe_cons,
        ih (offset + 1 + (byteAt opt (8 + offset)).toNat) (by omega)]
      have hsize : (dumpLabels opt).size ⟨offset, suffix.length⟩ =
          ((if suffix ≠ [] then suffix ++ [46] else suffix) ++
            strncatText (opt.drop (8 + (offset + 1))) (byteAt opt (8 + offset)).toNat).length := by
        rw [List.length_append]
        change _ + _ + _ = _
        by_cases hnil : suffix = []
        · simp [hnil, Cursor.src, Cursor.labelLen]
        · simp [hnil, Cursor.src, Cursor.labelLen]
      rw [hsize]
      simp only [safe_read, safe_label, Cursor.src, Cursor.labelLen]
      constructor
      · rintro ⟨-, ⟨-, hstop⟩, hrest⟩
        exact ⟨by omega, hrest⟩
      · rintro ⟨hstop, hrest⟩
        exact ⟨hread, ⟨by omega, by omega⟩, hrest⟩

theorem dumpDnssl_safe {opt : Buf} (h : Announced opt) :
    AllSafe (dumpDnssl opt) ↔ DumpLabelsFit opt := by
  have hlimit := h.limit
  have height := h.eight
  obtain ⟨-, -, hle⟩ := h
  have hloop := dumpDnsslLoop_safe opt (dnsslLimit opt) (by omega) (dnsslLimit opt) 0
    (Nat.le_add_left _ _) []
  simp only [dumpDnssl, allSafe_cons, allSafe_append, safe_emit, safe_read, allSafe_nil, hloop]
  exact ⟨fun hall => hall.2.2.1, fun hfit => ⟨trivial, by omega, hfit, by omega, trivial, trivial, trivial⟩⟩

/-- What the second loop of `print_ff` takes for granted of an option. -/
@[mk_iff]
structure DumpFits (opt : Buf) : Prop where
  prefixInfo : byteAt opt 0 = ND_OPT_PREFIX_INFORMATION → 32 ≤ opt.length
  route : byteAt opt 0 = ND_OPT_ROUTE_INFORMATION → (byteAt opt 1).toNat ≤ 3
  rdnss : byteAt opt 0 = ND_OPT_RDNSS_INFORMATION → 24 ≤ opt.length
  dnssl : byteAt opt 0 = ND_OPT_DNSSL_INFORMATION → DumpLabelsFit opt

theorem dumpBlock_safe (edefs : Bool) (msg : Buf) {opt : Buf} (h : Announced opt) :
    AllSafe (dumpBlock edefs msg opt) ↔ DumpFits opt := by
  rw [dumpFits_iff, dumpBlock]
  by_cases hpre : byteAt opt 0 = ND_OPT_PREFIX_INFORMATION
  · rw [if_pos hpre, dumpPrefix_safe, hpre]
    simp [ND_OPT_PREFIX_INFORMATION, ND_OPT_ROUTE_INFORMATION, ND_OPT_RDNSS_INFORMATION,
      ND_OPT_DNSSL_INFORMATION]
  by_cases hroute : byteAt opt 0 = ND_OPT_ROUTE_INFORMATION
  · rw [if_neg hpre, if_pos hroute, dumpRoute_safe edefs msg h, hroute]
    simp [ND_OPT_PREFIX_INFORMATION, ND_OPT_ROUTE_INFORMATION, ND_OPT_RDNSS_INFORMATION,
      ND_OPT_DNSSL_INFORMATION]
  by_cases hrdnss : byteAt opt 0 = ND_OPT_RDNSS_INFORMATION
  · rw [if_neg hpre, if_neg hroute, if_pos hrdnss, dumpRdnss_safe h, hrdnss]
    simp [ND_OPT_PREFIX_INFORMATION, ND_OPT_ROUTE_INFORMATION, ND_OPT_RDNSS_INFORMATION,
      ND_OPT_DNSSL_INFORMATION]
  rw [if_neg hpre, if_neg hroute, if_neg hrdnss]
  by_cases hdnssl : byteAt opt 0 = ND_OPT_DNSSL_INFORMATION
  · rw [if_pos hdnssl, dumpDnssl_safe h, hdnssl]
    simp [ND_OPT_PREFIX_INFORMATION, ND_OPT_ROUTE_INFORMATION, ND_OPT_RDNSS_INFORMATION,
      ND_OPT_DNSSL_INFORMATION]
  · rw [if_neg hdnssl]
    simp [hpre, hroute, hrdnss, hdnssl]

/-! ### Every message -/

/-- Both parsers come to an end, and all that they read and copy is in its place. -/
def StaysInside (iface : Interface) (edefs : Bool) (msg : Buf) : Prop :=
  (∃ acts, processRa iface msg = some acts ∧ AllSafe acts) ∧
    ∃ acts, printFf edefs msg = some acts ∧ AllSafe acts

theorem raHeaderActs_safe (iface : Interface) (msg : Buf) : AllSafe (raHeaderActs iface msg) := by
  simp [raHeaderActs]

theorem processRa_safe_iff (iface : Interface) (msg : Buf) :
    (∃ acts, processRa iface msg = some acts ∧ AllSafe acts) ↔
      ∀ opt ∈ optionsOf raNext msg, Announced opt →
        byteAt opt 0 = ND_OPT_DNSSL_INFORMATION → RaLabelsFit opt := by
  have hrounds : ∀ opt, AllSafe (raRound iface opt).1 ↔
      (Announced opt → byteAt opt 0 = ND_OPT_DNSSL_INFORMATION → RaLabelsFit opt) := by
    intro opt
    exact (raRound_inside iface opt).2
  simp only [processRa_eq, Option.some.injEq, exists_eq_left', allSafe_append,
    raHeaderActs_safe, true_and, allSafe_flatMap, hrounds]

theorem printFf_safe_iff (edefs : Bool) (msg : Buf) :
    (∃ acts, printFf edefs msg = some acts ∧ AllSafe acts) ↔
      ∀ opt ∈ optionsOf nextOption msg, Announced opt → DumpFits opt := by
  have hrounds : ∀ opt, AllSafe (dumpRound (dumpBlock edefs msg) opt).1 ↔
      (Announced opt → DumpFits opt) := by
    intro opt
    rw [dumpRound_safe]
    exact forall_congr' fun h => dumpBlock_safe edefs msg h
  have hsingles : ∀ opt, AllSafe (dumpRound (dumpSingle edefs) opt).1 := by
    intro opt
    rw [dumpRound_safe]
    exact fun h => dumpSingle_safe edefs h
  unfold printFf
  dsimp only
  by_cases hheader : msg.length = raHeaderLen
  · have hnone : optionsOf nextOption msg = [] := by
      rw [optionsOf, List.drop_eq_nil_of_le (Nat.le_of_eq hheader)]
      rfl
    rw [if_pos hheader, hnone]
    simp [dumpHeader_safe]
  · rw [if_neg hheader, dumpLoop_eq, dumpLoop_eq]
    simp only [Option.bind_eq_bind, Option.bind_some, Option.pure_def, Option.some.injEq,
      exists_eq_left', allSafe_append, allSafe_cons, allSafe_nil, dumpHeader_safe, safe_emit,
      allSafe_flatMap, hsingles, hrounds, implies_true, true_and, and_true]

/-- When the parsers stay inside: no suffix list that is come to has a label
    across its end, and `print_ff` finds the structures of a prefix and of an
    RDNSS option whole and no route longer than three times eight bytes. -/
theorem staysInside_iff (iface : Interface) (edefs : Bool) (msg : Buf) :
    StaysInside iface edefs msg ↔
      (∀ opt ∈ optionsOf raNext msg, Announced opt →
        byteAt opt 0 = ND_OPT_DNSSL_INFORMATION → RaLabelsFit opt) ∧
      ∀ opt ∈ optionsOf nextOption msg, Announced opt → DumpFits opt := by
  unfold StaysInside
  rw [processRa_safe_iff, printFf_safe_iff]

/-- A route option with a length byte of five. -/
def longRoute : Buf :=
  List.replicate 16 0 ++ [ND_OPT_ROUTE_INFORMATION, 5, 64, 0, 0, 0, 7, 8] ++ List.replicate 32 1

/-- Thirty-two bytes are copied to an address of sixteen. -/
theorem longRoute_overflows : ¬ StaysInside (bareInterface 1280) true longRoute := by
  rintro ⟨-, acts, hacts, hsafe⟩
  have hcopy : (printFf true longRoute).any (·.contains (.copy 32)) = true := by decide +kernel
  rw [hacts] at hcopy
  have hsixteen : 32 ≤ 16 := hsafe (.copy 32) (by simpa using hcopy)
  exact absurd hsixteen (by decide)

end WanStack.Radvd
