import WanStack.Racoon.ResponderLifetime

set_option autoImplicit false

/-!
# The payloads of the second message in quick mode

What `quick_r2send` means to send, for every combination of its optional payloads, and
what `isakmp_parsewoh` finds in the body that it builds.
-/
namespace WanStack.Racoon.Lifetime
open Aftr (Buf byteAt shortAt bytesAt)
open Proposal (Saprop Saproto Ph1 IsakmpParse GEN_LEN ISAKMP_NPTYPE_NONE IPSECDOI_ATTR_SA_LD_TYPE_SEC
  IPSECDOI_ATTR_SA_LD_TYPE_KB isakmpParsewoh parseLoop payload)
open Handles (ISAKMP_NPTYPE_N)
open Quick (ISAKMP_NPTYPE_SA ISAKMP_NTYPE_RESPONDER_LIFETIME)

/-- The NAT-OA payloads, if they are used. -/
def natoas (ph1 : Ph1) (m : R2) : List (ℕ × Buf) :=
  if natoaType ph1 m ≠ ISAKMP_NPTYPE_NONE then [(natoaType ph1 m, m.natOai.v), (natoaType ph1 m, m.natOar.v)]
  else []

/-- The notifications, if a lifetime is claimed. -/
def announced (pp : Saprop) : List (ℕ × Buf) :=
  if lifetimeData pp = [] then [] else notifications pp.head (lifetimeData pp)

/-- The payloads that are meant, with their types. -/
def meant (ph1 : Ph1) (m : R2) (pp : Saprop) : List (ℕ × Buf) := front m pp.pfsGroup ++ (natoas ph1 m ++ announced pp)

/-- A payload is found with the type it was built for and its own bytes. -/
def Carries (pa : IsakmpParse) (seg : ℕ × Buf) : Prop :=
  pa.type = seg.1 ∧ pa.len = GEN_LEN + seg.2.length ∧ bytesAt pa.ptr GEN_LEN seg.2.length = seg.2

/-- The lengths of payloads, summed up. -/
def sizes : List (ℕ × Buf) → ℕ
  | [] => 0
  | seg :: segs => GEN_LEN + seg.2.length + sizes segs

/-- The body consists of the payloads that are meant, and they are what is found in it. -/
structure MeantArrive (ph1 : Ph1) (m : R2) (pp : Saprop) : Prop where
  size : sizes (meant ph1 m pp) = (quickR2body ph1 m pp).length
  parse : ∃ pays, isakmpParsewoh ISAKMP_NPTYPE_SA (quickR2body ph1 m pp) (quickR2body ph1 m pp).length = some pays ∧
    List.Forall₂ Carries pays (meant ph1 m pp)

/-- There is a notification to send. -/
def Notifies (pp : Saprop) : Prop :=
  (pp.claim &&& IPSECDOI_ATTR_SA_LD_TYPE_SEC ≠ 0 ∨ pp.claim &&& IPSECDOI_ATTR_SA_LD_TYPE_KB ≠ 0) ∧ pp.head ≠ []

/-! ### The body -/

section Body
variable (ph1 : Ph1) (m : R2) (pp : Saprop)

theorem lifetimeData_nil : lifetimeData pp = [] ↔
    pp.claim &&& IPSECDOI_ATTR_SA_LD_TYPE_SEC = 0 ∧ pp.claim &&& IPSECDOI_ATTR_SA_LD_TYPE_KB = 0 := by
  unfold lifetimeData
  by_cases hsec : pp.claim &&& IPSECDOI_ATTR_SA_LD_TYPE_SEC = 0
  · by_cases hkb : pp.claim &&& IPSECDOI_ATTR_SA_LD_TYPE_KB = 0
    · simp [hsec, hkb]
    · simp [hsec, hkb, Proposal.isakmpSetAttrL, Racoon.short]
  · simp [hsec, Proposal.isakmpSetAttrL, Racoon.short]

theorem announced_nil : announced pp = [] ↔ ¬ Notifies pp := by
  unfold announced Notifies
  by_cases hdata : lifetimeData pp = []
  · have hclaim := (lifetimeData_nil pp).mp hdata
    simp [hdata, hclaim]
  · have hclaim := mt (lifetimeData_nil pp).mpr hdata
    rw [if_neg hdata, notifications, List.map_eq_nil_iff]
    tauto

theorem sizes_mixed (segs : List (ℕ × Buf)) (np : ℕ) : sizes segs = (mixed segs np).length := by
  induction segs with
  | nil => rfl
  | cons seg segs ih => rw [sizes, mixed, List.length_append, Proposal.payload_length, ih]

theorem natoaTail_eq : natoaTail m (natoaType ph1 m) = mixed (natoas ph1 m) ISAKMP_NPTYPE_NONE := by
  unfold natoaTail natoas
  by_cases hnatoa : natoaType ph1 m = ISAKMP_NPTYPE_NONE
  · simp [hnatoa, mixed]
  · simp [hnatoa, mixed, nextType]

/-- The body without notifications. -/
theorem head_mixed : (r2Head ph1 m pp.pfsGroup).buf =
    mixed (front m pp.pfsGroup ++ natoas ph1 m) ISAKMP_NPTYPE_NONE := by
  obtain ⟨init, last, hfront, -, hbuf⟩ := r2Head_eq ph1 m pp.pfsGroup
  have hnext : nextType (natoas ph1 m) ISAKMP_NPTYPE_NONE = natoaType ph1 m := by
    unfold natoas
    by_cases hnatoa : natoaType ph1 m = ISAKMP_NPTYPE_NONE
    · simp [hnatoa, nextType]
    · simp [hnatoa, nextType]
  rw [hbuf, natoaTail_eq, ← hfront, mixed_append (front m pp.pfsGroup), hnext]

theorem body_announced (h : Notifies pp) : quickR2body ph1 m pp =
    mixed (front m pp.pfsGroup) ISAKMP_NPTYPE_N ++
      (mixed (natoas ph1 m) ISAKMP_NPTYPE_NONE ++ mixed (announced pp) ISAKMP_NPTYPE_NONE) := by
  have hdata : lifetimeData pp ≠ [] := by
    intro hnil
    exact (announced_nil pp).mp (if_pos hnil) h
  rw [quickR2body_eq ph1 m pp hdata h.2, natoaTail_eq, announced, if_neg hdata, List.append_assoc]

theorem body_silent (h : ¬ Notifies pp) : quickR2body ph1 m pp =
    mixed (front m pp.pfsGroup ++ natoas ph1 m) ISAKMP_NPTYPE_NONE := by
  rw [← head_mixed]
  unfold quickR2body
  by_cases hdata : lifetimeData pp = []
  · rw [if_pos hdata]
  · have hhead : pp.head = [] := by
      by_contra hhead
      exact h ⟨by have hclaim := mt (lifetimeData_nil pp).mpr hdata; tauto, hhead⟩
    rw [if_neg hdata, hhead]
    rfl

theorem size_meant : sizes (meant ph1 m pp) = (quickR2body ph1 m pp).length := by
  have happend : ∀ xs ys : List (ℕ × Buf), sizes (xs ++ ys) = sizes xs + sizes ys := by
    intro xs ys
    rw [sizes_mixed _ ISAKMP_NPTYPE_NONE, mixed_append, List.length_append, sizes_mixed xs, sizes_mixed ys]
  by_cases h : Notifies pp
  · rw [body_announced ph1 m pp h, meant, happend, happend, List.length_append, List.length_append,
      ← sizes_mixed, ← sizes_mixed, ← sizes_mixed]
  · rw [body_silent ph1 m pp h, ← sizes_mixed, meant, (announced_nil pp).mpr h, List.append_nil]

end Body

/-! ### What is found -/

theorem founds_carries (segs : List (ℕ × Buf)) (np : ℕ) (rest : Buf) :
    List.Forall₂ Carries (founds segs np rest) segs := by
  induction segs with
  | nil => exact .nil
  | cons seg segs ih =>
    refine .cons ⟨rfl, rfl, ?_⟩ ih
    change bytesAt (payload (nextType segs np) seg.2 ++ mixed segs np ++ rest) GEN_LEN seg.2.length = seg.2
    have hsplit : payload (nextType segs np) seg.2 ++ mixed segs np ++ rest =
        ([UInt8.ofNat (nextType segs np), 0] ++ Racoon.short (GEN_LEN + seg.2.length)) ++
          (seg.2 ++ (mixed segs np ++ rest)) := by
      simp [payload]
    have hdrop : (([UInt8.ofNat (nextType segs np), 0] ++ Racoon.short (GEN_LEN + seg.2.length)) ++
        (seg.2 ++ (mixed segs np ++ rest))).drop GEN_LEN = seg.2 ++ (mixed segs np ++ rest) := List.drop_left' rfl
    rw [hsplit, bytesAt, hdrop, List.take_left]

/-- A length that is found is one of 16 bits. -/
theorem parseLoop_len (k np : ℕ) (gen : Buf) (tlen : ℤ) {pays : List IsakmpParse}
    (h : parseLoop k np gen tlen = some pays) : ∀ pa ∈ pays, pa.len < 65536 := by
  induction k generalizing np gen tlen pays with
  | zero =>
    cases h
    simp
  | succ k ih =>
    rw [parseLoop] at h
    split at h
    · cases h
      simp
    · split at h
      · cases h
      · dsimp only at h
        split at h
        · cases h
        · obtain ⟨rest, hrest, rfl⟩ := Option.map_eq_some_iff.mp h
          intro pa hpa
          obtain rfl | hpa := List.mem_cons.mp hpa
          · have hhi := (byteAt gen 2).toNat_lt
            have hlo := (byteAt gen 3).toNat_lt
            change (byteAt gen 2).toNat * 256 + (byteAt gen 3).toNat < 65536
            omega
          · exact ih _ _ _ hrest pa hpa

section Arrive
variable (ph1 : Ph1) (m : R2) (pp : Saprop)

/-- The notifications are not so long that their lengths wrap. -/
def NotifiesFit (pp : Saprop) : Prop := ∀ seg ∈ announced pp, GEN_LEN + seg.2.length < 65536

theorem natoas_walkable : Walkable (natoas ph1 m) := by
  intro seg hseg
  unfold natoas at hseg
  split at hseg
  · rename_i hnatoa
    have hlt : natoaType ph1 m < 256 := by
      unfold natoaType
      split
      · cases ph1.natt <;> decide
      · decide
    obtain rfl | hseg := List.mem_cons.mp hseg
    · exact ⟨hnatoa, hlt, m.natOai.ne, m.natOai.fits⟩
    · obtain rfl := List.mem_singleton.mp hseg
      exact ⟨hnatoa, hlt, m.natOar.ne, m.natOar.fits⟩
  · cases hseg

theorem announced_walkable (hfit : NotifiesFit pp) : Walkable (announced pp) := by
  intro seg hseg
  have hlen := hfit seg hseg
  unfold announced at hseg
  split at hseg
  · cases hseg
  · obtain ⟨pr, -, rfl⟩ := List.mem_map.mp hseg
    have hsize := length_notifyBody ISAKMP_NTYPE_RESPONDER_LIFETIME pr (lifetimeData pp)
    have htype : ISAKMP_NPTYPE_N ≠ 0 ∧ ISAKMP_NPTYPE_N < 256 := by decide
    refine ⟨htype.1, htype.2, ?_, hlen⟩
    apply List.ne_nil_of_length_pos
    change 0 < (notifyBody ISAKMP_NTYPE_RESPONDER_LIFETIME pr (lifetimeData pp)).length
    omega

/-- A body that is one chain is found as it is meant. -/
theorem parse_meant (hfit : NotifiesFit pp) (hbody : quickR2body ph1 m pp = mixed (meant ph1 m pp) ISAKMP_NPTYPE_NONE) :
    MeantArrive ph1 m pp := by
  have hwalk : Walkable (meant ph1 m pp) := by
    intro seg hseg
    obtain hseg | hseg := List.mem_append.mp hseg
    · exact walkable_front m pp.pfsGroup seg hseg
    · obtain hseg | hseg := List.mem_append.mp hseg
      · exact natoas_walkable ph1 m seg hseg
      · exact announced_walkable pp hfit seg hseg
  have hparse := isakmpParsewoh_mixed _ [] hwalk
  rw [List.append_nil, ← hbody] at hparse
  exact ⟨size_meant ph1 m pp, _, hparse, founds_carries _ _ _⟩

theorem arrive_of_apart (hfit : NotifiesFit pp) (h : ¬ (WithNatoa ph1 m ∧ Notifies pp)) : MeantArrive ph1 m pp := by
  apply parse_meant ph1 m pp hfit
  by_cases hnotify : Notifies pp
  · -- the notifications are announced by the last payload in front of them
    have hnone : natoas ph1 m = [] := by
      have hnatoa := (natoaType_none ph1 m).mpr fun hw => h ⟨hw, hnotify⟩
      rw [natoas, if_neg (by simpa using hnatoa)]
    have hnext : nextType (announced pp) ISAKMP_NPTYPE_NONE = ISAKMP_NPTYPE_N := by
      have hne := mt (announced_nil pp).mp (not_not.mpr hnotify)
      unfold announced at hne ⊢
      split
      · rename_i hdata
        exact absurd (if_pos hdata) hne
      · obtain ⟨pr, prs, hprs⟩ := List.exists_cons_of_ne_nil hnotify.2
        rw [hprs]
        rfl
    rw [body_announced ph1 m pp hnotify, meant, hnone, List.nil_append, mixed_append, hnext]
    rfl
  · rw [body_silent ph1 m pp hnotify, meant, (announced_nil pp).mpr hnotify, List.append_nil]

/-- Behind NAT-OA no notification is found: the first NAT-OA is announced as one, and the
    second ends the chain. -/
theorem not_arrive (hnatoa : WithNatoa ph1 m) (hnotify : Notifies pp) : ¬ MeantArrive ph1 m pp := by
  rintro ⟨-, pays, hparse, hcarries⟩
  have hne : natoaType ph1 m ≠ ISAKMP_NPTYPE_NONE := fun hnone => (natoaType_none ph1 m).mp hnone hnatoa
  have hnatoas : natoas ph1 m = [(natoaType ph1 m, m.natOai.v), (natoaType ph1 m, m.natOar.v)] := if_pos hne
  have hbody : quickR2body ph1 m pp =
      mixed (front m pp.pfsGroup ++ [(ISAKMP_NPTYPE_N, m.natOai.v), (natoaType ph1 m, m.natOar.v)])
        ISAKMP_NPTYPE_NONE ++ mixed (announced pp) ISAKMP_NPTYPE_NONE := by
    rw [body_announced ph1 m pp hnotify, hnatoas, mixed_append, List.append_assoc]
    rfl
  have hwalk : Walkable
      (front m pp.pfsGroup ++ [(ISAKMP_NPTYPE_N, m.natOai.v), (natoaType ph1 m, m.natOar.v)]) := by
    have hwalkNatoas := natoas_walkable ph1 m
    rw [hnatoas] at hwalkNatoas
    have htype : ISAKMP_NPTYPE_N ≠ 0 ∧ ISAKMP_NPTYPE_N < 256 := by decide
    intro seg hseg
    obtain hseg | hseg := List.mem_append.mp hseg
    · exact walkable_front m pp.pfsGroup seg hseg
    · obtain rfl | hseg := List.mem_cons.mp hseg
      · exact ⟨htype.1, htype.2, m.natOai.ne, m.natOai.fits⟩
      · exact hwalkNatoas seg (List.mem_cons_of_mem _ hseg)
  have hfound := isakmpParsewoh_mixed _ (mixed (announced pp) ISAKMP_NPTYPE_NONE) hwalk
  rw [nextType_append, nextType_front, ← hbody, hparse] at hfound
  have hcount : pays.length = (front m pp.pfsGroup).length + 2 := by
    rw [Option.some.inj hfound]
    rw [(founds_carries _ _ _).length_eq, List.length_append]
    rfl
  have hmeant := hcarries.length_eq
  have hpos : 0 < (announced pp).length :=
    List.length_pos_iff.mpr (mt (announced_nil pp).mp (not_not.mpr hnotify))
  rw [hcount, meant, List.length_append, List.length_append, hnatoas] at hmeant
  change _ + 2 = _ + (2 + _) at hmeant
  omega

theorem fit_of_arrive (h : MeantArrive ph1 m pp) : NotifiesFit pp := by
  obtain ⟨-, pays, hparse, hcarries⟩ := h
  intro seg hseg
  have hmem : seg ∈ meant ph1 m pp := List.mem_append_right _ (List.mem_append_right _ hseg)
  obtain ⟨pa, hpa, -, hlen, -⟩ := Proposal.forall₂_right hcarries seg hmem
  have hlt := parseLoop_len _ _ _ _ hparse pa hpa
  rwa [hlen] at hlt

end Arrive

/-- The payloads arrive as they are meant exactly if NAT-OA and notifications do not meet
    in one message, and no notification is longer than its length field tells. -/
theorem meantArrive_iff (ph1 : Ph1) (m : R2) (pp : Saprop) :
    MeantArrive ph1 m pp ↔ ¬ (WithNatoa ph1 m ∧ Notifies pp) ∧ NotifiesFit pp := by
  constructor
  · intro h
    exact ⟨fun hboth => not_arrive ph1 m pp hboth.1 hboth.2 h, fit_of_arrive ph1 m pp h⟩
  · rintro ⟨hapart, hfit⟩
    exact arrive_of_apart ph1 m pp hfit hapart

/-- Transport mode behind a NAT, with a time that the responder made shorter. -/
theorem notification_lost : ¬ MeantArrive (behindNat true) (withoutKe Proposal.IPSECDOI_ATTR_ENC_MODE_TRNS)
    { espFor 600 Proposal.IPSECDOI_ATTR_ENC_MODE_TRNS with claim := 1 } := by
  apply not_arrive
  · exact ⟨by decide, by decide⟩
  · exact ⟨by decide, List.cons_ne_nil _ _⟩

end WanStack.Racoon.Lifetime
