import WanStack.Racoon.Pfkey

set_option autoImplicit false

/-!
# Associations and their place in the bundle

What the kernel is handed for a protocol should be what it would be handed for
the protocol alone. Two fields of the record are set for some protocols only:
the replay window, which IPComp takes to zero, and the encapsulation.
-/
namespace WanStack.Racoon.Pfkey
open Proposal (IPSECDOI_PROTO_IPSEC_AH IPSECDOI_PROTO_IPSEC_ESP IPSECDOI_PROTO_IPCOMP)
open Handles (Satype)
open Lib.Reused

def Ph2handle.protos (h : Ph2handle) : List Keyed :=
  (h.approval.map Approval.head).getD []

/-- The handle with `pr` as the only protocol of its approval. -/
def Ph2handle.only (h : Ph2handle) (pr : Keyed) : Ph2handle :=
  { h with approval := h.approval.map fun a => { a with head := [pr] } }

/-- `args` are handed for `pr` as they would be if it were alone. -/
structure AsAlone (send : Ph2handle → List SaArgs × Bool) (h : Ph2handle) (pr : Keyed)
    (args : SaArgs) : Prop where
  only : (send (h.only pr)).1 = [args]
  wsize : args.wsize = if pr.protoId = IPSECDOI_PROTO_IPCOMP then 0 else 4
  natt : pr.udpEncap = false → args.natt = none

/-- The associations of both directions do not depend on their place. -/
structure Placeless (backupsa : Bool) (answersU answersA : ℕ → Bool) (h : Ph2handle) : Prop where
  update : ∀ p ∈ h.protos.zip (pkSendupdate backupsa answersU h).1,
    AsAlone (pkSendupdate backupsa answersU) h p.1 p.2
  add : ∀ p ∈ h.protos.zip (pkSendadd answersA h).1, AsAlone (pkSendadd answersA) h p.1 p.2
  sameType : ∀ p ∈ (pkSendupdate backupsa answersU h).1.zip (pkSendadd answersA h).1,
    p.1.natt.map Natt.type = p.2.natt.map Natt.type

/-- The protocols that get as far as the kernel: those in front of the first
    that cannot be converted, up to the first it refuses. -/
def reached (answers : ℕ → Bool) : ℕ → List Keyed → List Keyed
  | _, [] => []
  | k, pr :: rest =>
    if converted pr = none then [] else
    pr :: if answers k then reached answers (k + 1) rest else []

def IsIpcomp (pr : Keyed) : Prop := pr.protoId = IPSECDOI_PROTO_IPCOMP
deriving Decidable

def IsEncap (pr : Keyed) : Prop := pr.udpEncap = true
deriving Decidable

/-- The protocols with a property are the last ones of a list. -/
def Last (P : Keyed → Prop) (protos : List Keyed) : Prop :=
  protos.Pairwise fun pr pr' => P pr → P pr'

/-- Both directions get to their protocols in the same order. -/
theorem reached_zip (answers answers' : ℕ → Bool) (k : ℕ) (protos : List Keyed) :
    ∀ p ∈ (reached answers k protos).zip (reached answers' k protos), p.1 = p.2 := by
  induction protos generalizing k with
  | nil => simp [reached]
  | cons pr rest ih =>
    unfold reached
    by_cases hconv : converted pr = none
    · simp [hconv]
    · simp only [if_neg hconv, List.zip_cons_cons, List.forall_mem_cons, true_and]
      by_cases h : answers k = true
      · by_cases h' : answers' k = true
        · simpa only [if_pos h, if_pos h'] using ih (k + 1)
        · simp [h']
      · simp [h]

theorem converted_satype {pr : Keyed} {c : Satype × Mode × Alg} (h : converted pr = some c) :
    c.1 = .IPCOMP ↔ IsIpcomp pr := by
  have hproto : ipsecdoi2pfkeyProto pr.protoId = some c.1 := by
    simp only [converted, Option.bind_eq_bind, Option.bind_eq_some_iff, Option.pure_def,
      Option.some.injEq] at h
    obtain ⟨satype, hs, mode, -, alg, -, rfl⟩ := h
    exact hs
  unfold ipsecdoi2pfkeyProto at hproto
  unfold IsIpcomp
  split_ifs at hproto with hah hesp hcomp
  · simp [← Option.some.inj hproto, hah, IPSECDOI_PROTO_IPSEC_AH, IPSECDOI_PROTO_IPCOMP]
  · simp [← Option.some.inj hproto, hesp, IPSECDOI_PROTO_IPSEC_ESP, IPSECDOI_PROTO_IPCOMP]
  · simp [← Option.some.inj hproto, hcomp]

/-- The fields that the loop never sets. -/
def SameFixed (base args : SaArgs) : Prop :=
  args.lAddtime = base.lAddtime ∧ args.seq = base.seq ∧ args.src = base.src ∧ args.dst = base.dst

section Loop
variable {a : Approval} {dir : Direction} {base : SaArgs}

theorem fillArgs_fixed {args args' : SaArgs} {pr : Keyed} (hargs : SameFixed base args)
    (h : fillArgs a dir args pr = some args') : SameFixed base args' := by
  obtain ⟨c, -, rfl⟩ := Option.map_eq_some_iff.mp h
  exact hargs

/-- A round fills the record as it would the first time exactly when the two
    fields are set by it or as they were. -/
theorem fillArgs_alone {args args' : SaArgs} {pr : Keyed} (hargs : SameFixed base args)
    (hwsize : base.wsize = 4) (hnatt : base.natt = none)
    (h : fillArgs a dir args pr = some args') :
    fillArgs a dir base pr = some args' ↔
      (IsIpcomp pr ∨ args.wsize = 4) ∧ (IsEncap pr ∨ args.natt = none) := by
  obtain ⟨c, hc, rfl⟩ := Option.map_eq_some_iff.mp h
  obtain ⟨hadd, hseq, hsrc, hdst⟩ := hargs
  have hcomp := converted_satype hc
  simp only [fillArgs, hc, Option.map_some, Option.some.injEq, SaArgs.mk.injEq, hadd, hseq, hsrc,
    hdst, hwsize, hnatt, true_and, and_true, hcomp]
  by_cases hp : IsIpcomp pr <;> by_cases hu : pr.udpEncap = true <;>
    simp [hp, hu, IsEncap, eq_comm]

theorem fillArgs_wsize {args args' : SaArgs} {pr : Keyed}
    (h : fillArgs a dir args pr = some args') :
    args'.wsize = held IsIpcomp 0 args.wsize pr := by
  obtain ⟨c, hc, rfl⟩ := Option.map_eq_some_iff.mp h
  unfold held
  simp only [converted_satype hc]

theorem fillArgs_natt {args args' : SaArgs} {pr : Keyed}
    (h : fillArgs a dir args pr = some args') :
    args'.natt = held IsEncap (some dir.natt) args.natt pr := by
  obtain ⟨c, -, rfl⟩ := Option.map_eq_some_iff.mp h
  rfl

theorem fillArgs_none {args : SaArgs} {pr : Keyed} :
    fillArgs a dir args pr = none ↔ converted pr = none := by
  simp [fillArgs]

variable {back : SaArgs → SaArgs} {backupsa : Bool}

/-- What is done after a call: at most the window is set to four again. -/
structure Restores (backupsa : Bool) (back : SaArgs → SaArgs) : Prop where
  fixed : ∀ args, SameFixed args (back args)
  natt : ∀ args, (back args).natt = args.natt
  wsize : ∀ args, (back args).wsize = if backupsa then 4 else args.wsize

/-- What IPComp leaves in the window. -/
def leftWindow (backupsa : Bool) : ℕ := if backupsa then 4 else 0

variable (a dir base) in
theorem sendLoop_alone (hback : Restores backupsa back) (hwsize : base.wsize = 4)
    (hnatt : base.natt = none) (answers : ℕ → Bool) (protos : List Keyed) (k : ℕ)
    (args : SaArgs) (hargs : SameFixed base args) (hfour : backupsa = true → args.wsize = 4) :
    (∀ p ∈ protos.zip (sendLoop a dir back answers k args protos).1,
        fillArgs a dir base p.1 = some p.2) ↔
      Clean IsIpcomp (leftWindow backupsa) 4 args.wsize (reached answers k protos) ∧
        Clean IsEncap (some dir.natt) none args.natt (reached answers k protos) := by
  induction protos generalizing k args with
  | nil => simp [sendLoop, reached, Clean]
  | cons pr rest ih =>
    cases hfill : fillArgs a dir args pr with
    | none =>
      have hnone := fillArgs_none.mp hfill
      simp [sendLoop, reached, hfill, hnone, Clean]
    | some args' =>
      have hsome : converted pr ≠ none := fun hnone => by
        simp [fillArgs_none.mpr hnone] at hfill
      have hhere := fillArgs_alone hargs hwsize hnatt hfill
      by_cases hanswer : answers k = true
      · have hw : (back args').wsize = held IsIpcomp (leftWindow backupsa) args.wsize pr := by
          rw [hback.wsize, fillArgs_wsize hfill]
          unfold held leftWindow
          cases hb : backupsa with
          | false => simp
          | true =>
            have := hfour hb
            simp [this]
        have hn : (back args').natt = held IsEncap (some dir.natt) args.natt pr := by
          rw [hback.natt, fillArgs_natt hfill]
        have hfixed : SameFixed base (back args') := by
          obtain ⟨h1, h2, h3, h4⟩ := fillArgs_fixed hargs hfill
          obtain ⟨g1, g2, g3, g4⟩ := hback.fixed args'
          exact ⟨g1.trans h1, g2.trans h2, g3.trans h3, g4.trans h4⟩
        have hrest := ih (k + 1) (back args') hfixed (fun hb => by rw [hback.wsize, if_pos hb])
        simp only [sendLoop, hfill, hanswer, if_true, List.zip_cons_cons, List.forall_mem_cons,
          hhere, hrest, reached, if_neg hsome, Clean, hw, hn]
        exact and_and_and_comm
      · simp [sendLoop, hfill, hanswer, hhere, reached, hsome, Clean]

/-- Where the encapsulation is clean, each record has that of its protocol. -/
theorem sendLoop_natt (hback : Restores backupsa back) (answers : ℕ → Bool)
    (protos : List Keyed) (k : ℕ) (args : SaArgs)
    (hclean : Clean IsEncap (some dir.natt) none args.natt (reached answers k protos)) :
    (sendLoop a dir back answers k args protos).1.map SaArgs.natt =
      (reached answers k protos).map fun pr => if IsEncap pr then some dir.natt else none := by
  induction protos generalizing k args with
  | nil => rfl
  | cons pr rest ih =>
    cases hfill : fillArgs a dir args pr with
    | none =>
      have hnone := fillArgs_none.mp hfill
      simp [sendLoop, reached, hfill, hnone]
    | some args' =>
      have hsome : converted pr ≠ none := fun hnone => by
        simp [fillArgs_none.mpr hnone] at hfill
      simp only [reached, if_neg hsome, Clean] at hclean
      have hn := fillArgs_natt hfill
      have hthis : args'.natt = if IsEncap pr then some dir.natt else none := by
        rw [hn]
        unfold held
        split
        · rfl
        · exact hclean.1.resolve_left ‹_›
      by_cases hanswer : answers k = true
      · rw [if_pos hanswer] at hclean
        have hrest := ih (k + 1) (back args') (by rw [hback.natt, hn]; exact hclean.2)
        simp only [sendLoop, hfill, hanswer, if_true, List.map_cons, reached, if_neg hsome, hthis,
          hrest]
      · simp [sendLoop, hfill, hanswer, reached, if_neg hsome, hthis]

end Loop

theorem backedUp_restores (backupsa : Bool) (a : Approval) :
    Restores backupsa (backedUp backupsa a) where
  fixed args := by
    cases backupsa <;> exact ⟨rfl, rfl, rfl, rfl⟩
  natt args := by
    cases backupsa <;> rfl
  wsize args := by
    cases backupsa <;> rfl

theorem id_restores : Restores false id where
  fixed _ := ⟨rfl, rfl, rfl, rfl⟩
  natt _ := rfl
  wsize _ := rfl

/-- What a function hands for a protocol alone is what one round hands from the
    first record. -/
theorem asAlone_iff {a : Approval} {dir : Direction} (back : SaArgs → SaArgs)
    (answers : ℕ → Bool) {send : Ph2handle → List SaArgs × Bool} {h : Ph2handle} {pr : Keyed}
    {args : SaArgs}
    (hsend : send (h.only pr) = sendLoop { a with head := [pr] } dir back answers 0
      (firstArgs h a dir) [pr]) :
    AsAlone send h pr args ↔ fillArgs a dir (firstArgs h a dir) pr = some args := by
  have hloop : (send (h.only pr)).1 = (fillArgs a dir (firstArgs h a dir) pr).toList := by
    rw [hsend]
    have hsame : fillArgs { a with head := [pr] } dir (firstArgs h a dir) pr =
        fillArgs a dir (firstArgs h a dir) pr := rfl
    cases hfill : fillArgs a dir (firstArgs h a dir) pr with
    | none => simp [sendLoop, hsame, hfill]
    | some args' =>
      simp only [sendLoop, hsame, hfill]
      split <;> rfl
  constructor
  · intro h
    have honly := h.only
    rw [hloop] at honly
    exact Option.toList_eq_singleton_iff.mp honly
  · intro hfill
    obtain ⟨c, hc, -⟩ := Option.map_eq_some_iff.mp hfill
    refine ⟨by rw [hloop, hfill]; rfl, ?_, ?_⟩
    · rw [fillArgs_wsize hfill]
      rfl
    · intro hu
      rw [fillArgs_natt hfill]
      simp [held, IsEncap, hu, firstArgs]

theorem clean_encap_iff (natt : Natt) (protos : List Keyed) :
    Clean IsEncap (some natt) none none protos ↔ Last IsEncap protos :=
  clean_iff IsEncap (some natt) none (by simp) protos

section Sent
variable {a : Approval} {h : Ph2handle}

theorem update_iff (ha : h.approval = some a) (backupsa : Bool) (answers : ℕ → Bool) :
    (∀ p ∈ h.protos.zip (pkSendupdate backupsa answers h).1,
        AsAlone (pkSendupdate backupsa answers) h p.1 p.2) ↔
      (backupsa = true ∨ Last IsIpcomp (reached answers 0 h.protos)) ∧
        Last IsEncap (reached answers 0 h.protos) := by
  have hprotos : h.protos = a.head := by simp [Ph2handle.protos, ha]
  have hsend : pkSendupdate backupsa answers h = sendLoop a h.inbound (backedUp backupsa a) answers
      0 (firstArgs h a h.inbound) a.head := by
    simp [pkSendupdate, ha]
  have halone : ∀ pr args, AsAlone (pkSendupdate backupsa answers) h pr args ↔
      fillArgs a h.inbound (firstArgs h a h.inbound) pr = some args := fun pr args => by
    refine asAlone_iff (backedUp backupsa a) answers ?_
    simp only [pkSendupdate, Ph2handle.only, ha, Option.map_some]
    rfl
  have hloop := sendLoop_alone a h.inbound (firstArgs h a h.inbound)
    (backedUp_restores backupsa a) rfl rfl answers a.head 0 (firstArgs h a h.inbound)
    ⟨rfl, rfl, rfl, rfl⟩ (fun _ => rfl)
  have hleft : leftWindow backupsa = 4 ↔ backupsa = true := by cases backupsa <;> decide
  simp only [halone, hsend, hprotos]
  rw [hloop]
  change Clean IsIpcomp (leftWindow backupsa) 4 4 _ ∧ Clean IsEncap _ none none _ ↔ _
  rw [clean_base, hleft, clean_encap_iff]
  rfl

theorem add_iff (ha : h.approval = some a) (answers : ℕ → Bool) :
    (∀ p ∈ h.protos.zip (pkSendadd answers h).1, AsAlone (pkSendadd answers) h p.1 p.2) ↔
      Last IsIpcomp (reached answers 0 h.protos) ∧ Last IsEncap (reached answers 0 h.protos) := by
  have hprotos : h.protos = a.head := by simp [Ph2handle.protos, ha]
  have hsend : pkSendadd answers h =
      sendLoop a h.outbound id answers 0 (firstArgs h a h.outbound) a.head := by
    simp [pkSendadd, ha]
  have halone : ∀ pr args, AsAlone (pkSendadd answers) h pr args ↔
      fillArgs a h.outbound (firstArgs h a h.outbound) pr = some args := fun pr args => by
    refine asAlone_iff id answers ?_
    simp only [pkSendadd, Ph2handle.only, ha, Option.map_some]
    rfl
  have hloop := sendLoop_alone a h.outbound (firstArgs h a h.outbound) id_restores rfl rfl answers a.head 0 (firstArgs h a h.outbound)
    ⟨rfl, rfl, rfl, rfl⟩ (fun hb => absurd hb (by simp))
  simp only [halone, hsend, hprotos]
  rw [hloop]
  change Clean IsIpcomp 0 4 4 _ ∧ Clean IsEncap _ none none _ ↔ _
  rw [clean_iff IsIpcomp 0 4 (by decide), clean_encap_iff]
  rfl

/-- The types of the encapsulations, once they are those of their protocols. -/
theorem types_iff (ha : h.approval = some a) (backupsa : Bool) (answersU answersA : ℕ → Bool)
    (hU : Last IsEncap (reached answersU 0 h.protos))
    (hA : Last IsEncap (reached answersA 0 h.protos)) :
    (∀ p ∈ (pkSendupdate backupsa answersU h).1.zip (pkSendadd answersA h).1,
        p.1.natt.map Natt.type = p.2.natt.map Natt.type) ↔
      (h.encapsType = .ESPINUDP ∨
        ∀ p ∈ (reached answersU 0 h.protos).zip (reached answersA 0 h.protos), ¬ IsEncap p.1) := by
  have hprotos : h.protos = a.head := by simp [Ph2handle.protos, ha]
  have hnattU : (pkSendupdate backupsa answersU h).1.map SaArgs.natt =
      (reached answersU 0 h.protos).map fun pr =>
        if IsEncap pr then some h.inbound.natt else none := by
    rw [hprotos] at hU ⊢
    simp only [pkSendupdate, ha]
    exact sendLoop_natt (backedUp_restores backupsa a) answersU a.head 0 _
      ((clean_encap_iff _ _).mpr hU)
  have hnattA : (pkSendadd answersA h).1.map SaArgs.natt =
      (reached answersA 0 h.protos).map fun pr =>
        if IsEncap pr then some h.outbound.natt else none := by
    rw [hprotos] at hA ⊢
    simp only [pkSendadd, ha]
    exact sendLoop_natt id_restores answersA a.head 0 _ ((clean_encap_iff _ _).mpr hA)
  have hzip : (∀ p ∈ (pkSendupdate backupsa answersU h).1.zip (pkSendadd answersA h).1,
      p.1.natt.map Natt.type = p.2.natt.map Natt.type) ↔
      ∀ p ∈ ((pkSendupdate backupsa answersU h).1.map SaArgs.natt).zip
        ((pkSendadd answersA h).1.map SaArgs.natt), p.1.map Natt.type = p.2.map Natt.type := by
    rw [List.zip_map]
    simp only [List.forall_mem_map, Prod.map]
  rw [hzip, hnattU, hnattA, List.zip_map]
  simp only [List.forall_mem_map, Prod.map]
  have hsame := reached_zip answersU answersA 0 h.protos
  constructor
  · intro htypes
    by_cases hnone : ∀ p ∈ (reached answersU 0 h.protos).zip (reached answersA 0 h.protos),
        ¬ IsEncap p.1
    · exact Or.inr hnone
    · push Not at hnone
      obtain ⟨p, hp, hencap⟩ := hnone
      have htype := htypes p hp
      rw [← hsame p hp, if_pos hencap, if_pos hencap] at htype
      exact Or.inl (Option.some.inj htype)
  · intro hor p hp
    rw [← hsame p hp]
    by_cases hencap : IsEncap p.1
    · have htype := hor.resolve_right fun hnone => hnone p hp hencap
      rw [if_pos hencap, if_pos hencap]
      exact congrArg some htype
    · rw [if_neg hencap, if_neg hencap]

end Sent

/-- The bundles whose associations do not depend on their place: in each
    direction IPComp comes last, unless the backup sets the window again, and so
    do the protocols with encapsulation, which the drafts that have an
    encapsulation of their own must not give to both directions. -/
theorem pkSend_placeless_iff (backupsa : Bool) (answersU answersA : ℕ → Bool) (h : Ph2handle) :
    Placeless backupsa answersU answersA h ↔
      (backupsa = true ∨ Last IsIpcomp (reached answersU 0 h.protos)) ∧
        Last IsIpcomp (reached answersA 0 h.protos) ∧
        Last IsEncap (reached answersU 0 h.protos) ∧
        Last IsEncap (reached answersA 0 h.protos) ∧
        (h.encapsType = .ESPINUDP ∨
          ∀ p ∈ (reached answersU 0 h.protos).zip (reached answersA 0 h.protos), ¬ IsEncap p.1) := by
  cases ha : h.approval with
  | none =>
    have hprotos : h.protos = [] := by simp [Ph2handle.protos, ha]
    have hU : pkSendupdate backupsa answersU h = ([], false) := by simp [pkSendupdate, ha]
    constructor
    · intro _
      simp [hprotos, reached, Last]
    · intro _
      refine ⟨?_, ?_, ?_⟩ <;> simp [hprotos, hU]
  | some a =>
    constructor
    · intro hplace
      obtain ⟨hwindowU, hencapU⟩ := (update_iff ha backupsa answersU).mp hplace.update
      obtain ⟨hwindowA, hencapA⟩ := (add_iff ha answersA).mp hplace.add
      have htypes := (types_iff ha backupsa answersU answersA hencapU hencapA).mp hplace.sameType
      exact ⟨hwindowU, hwindowA, hencapU, hencapA, htypes⟩
    · intro h
      obtain ⟨hwindowU, hwindowA, hencapU, hencapA, htypes⟩ := h
      exact
        { update := (update_iff ha backupsa answersU).mpr ⟨hwindowU, hencapU⟩
          add := (add_iff ha answersA).mpr ⟨hwindowA, hencapA⟩
          sameType := (types_iff ha backupsa answersU answersA hencapU hencapA).mpr htypes }

/-- A bundle of two tunnels of which the first is IPComp. -/
def compressedEsp : Ph2handle where
  lifetimeSecs := 0
  seq := 1
  src := .inet 1 500
  dst := .inet 2 500
  saSrc := none
  saDst := none
  natoaSrc := none
  natoaDst := none
  localAddr := .inet 1 500
  remote := .inet 2 500
  encapsType := .ESPINUDP
  espFrag := 0
  approval := some
    { lifetime := 3600
      lifebyte := 0
      sctx := none
      head :=
        [{ protoId := IPSECDOI_PROTO_IPCOMP
           spisize := 4
           encmode := 1
           udpEncap := false
           spi := [0, 0, 0, 2]
           spiP := [0, 0, 0, 2]
           reqidOut := 0
           reqidIn := 0
           head :=
             [{ trnsNo := 1
                trnsId := 2
                encklen := 0
                authtype := 254 }]
           keymat := []
           keymatP := []
           trns := by decide },
         { protoId := IPSECDOI_PROTO_IPSEC_ESP
           spisize := 4
           encmode := 1
           udpEncap := false
           spi := [1, 2, 3, 4]
           spiP := [5, 6, 7, 8]
           reqidOut := 0
           reqidIn := 0
           head :=
             [{ trnsNo := 1
                trnsId := 12
                encklen := 128
                authtype := 2 }]
           keymat := []
           keymatP := []
           trns := by decide }] }

/-- The ESP association of that bundle is installed without replay window. -/
theorem compressedEsp_unprotected :
    (pkSendupdate false (fun _ => true) compressedEsp).1.map SaArgs.wsize = [0, 0] ∧
      ¬ Placeless false (fun _ => true) (fun _ => true) compressedEsp := by
  constructor
  · decide
  · intro hplace
    have hlast := ((add_iff rfl _).mp hplace.add).1
    revert hlast
    unfold Last
    decide

end WanStack.Racoon.Pfkey
