import WanStack.Racoon.Phase2
import WanStack.Racoon.PropCheck

set_option autoImplicit false

/-!
# What a phase 2 approval comes from

The comparisons change modes only, and come out the same whether the modes were
changed before; so the searches are first matches in the lists as they were given.
Each protocol of an approval is traced back to a transform on the wire.
-/
namespace WanStack.Racoon.Phase2
open Aftr (Buf byteAt shortAt)
open Proposal

/-! ### Comparisons after comparisons -/

section
variable (ph1 : Ph1)

/-- A proposal as it was, or with some of its modes adjusted. -/
structure LikeProp (pp' pp : Saprop) : Prop where
  rest : { pp' with head := pp.head } = pp
  head : List.Forall₂ (Like ph1) pp'.head pp.head

theorem LikeProp.refl (pp : Saprop) : LikeProp ph1 pp pp := ⟨rfl, forall₂_like_refl ph1 pp.head⟩

theorem like_trans {a b c : Saproto} (hab : Like ph1 a b) (hbc : Like ph1 b c) : Like ph1 a c := by
  rcases hab with rfl | rfl
  · exact hbc
  · exact .inr (hbc.adjust ph1)

theorem forall₂_like_trans {a b c : List Saproto} (hab : List.Forall₂ (Like ph1) a b)
    (hbc : List.Forall₂ (Like ph1) b c) : List.Forall₂ (Like ph1) a c := by
  induction hab generalizing c with
  | nil => exact hbc
  | cons hx _ ih =>
    cases hbc with
    | cons hy hrest => exact .cons (like_trans ph1 hx hy) (ih hrest)

variable (side : Side)

theorem built_like {pr' pr : Saproto} (h : Like ph1 pr' pr) (searched : List Saproto) :
    built ph1 side searched pr' = built ph1 side searched pr := by
  have hfirst : firstLike pr' searched = firstLike pr searched := by
    rw [firstLike, firstLike, h.protoId]
  rw [built, built, hfirst]
  cases firstLike pr searched with
  | none => rfl
  | some x => exact (matchSide_like ph1 side h (.inl rfl : Like ph1 x x)).1

theorem matchProtos_like {driving' driving searched' searched : List Saproto}
    (hd : List.Forall₂ (Like ph1) driving' driving)
    (hs : List.Forall₂ (Like ph1) searched' searched) :
    (matchProtos ph1 side 0 driving' searched').new = (matchProtos ph1 side 0 driving searched).new := by
  have hbuilt : ∀ new, List.Forall₂ (fun pr n => built ph1 side searched pr = some n) driving' new ↔
      List.Forall₂ (fun pr n => built ph1 side searched pr = some n) driving new := by
    clear hs
    induction hd with
    | nil => exact fun new => Iff.rfl
    | cons hx _ ih =>
      intro new
      rw [List.forall₂_cons_left_iff, List.forall₂_cons_left_iff]
      simp only [built_like ph1 side hx, ih]
  apply Option.ext
  intro new
  have h' := matchProtos_new ph1 side 0 driving' hs new
  have h := matchProtos_new ph1 side 0 driving (forall₂_like_refl ph1 searched) new
  exact h'.trans ((hbuilt new).trans h.symm)

variable {ph1} {side}

theorem adjustEncmode_encmode (pr : Saproto) : (adjustEncmode ph1 pr).encmode =
    if ph1.natDetected && nattUdpEncap pr.encmode then pr.encmode - ph1.natt.modeUdpDiff
    else pr.encmode := by
  unfold adjustEncmode
  split <;> rfl

/-- A mode that is adjusted already stays as it is. -/
theorem adjusted_encmode (pr pr' : Saproto) (h : pr'.encmode = (adjustEncmode ph1 pr).encmode) :
    (adjustEncmode ph1 pr').encmode = (adjustEncmode ph1 pr).encmode := by
  rw [adjustEncmode_encmode pr', h, ← adjustEncmode_encmode, adjustEncmode_idem]

theorem LikeProp.checkLevel {a' a b' b : Saprop} (ha : LikeProp ph1 a' a) (hb : LikeProp ph1 b' b) :
    checkLevel ph1.pcheckLevel a' b' = checkLevel ph1.pcheckLevel a b := by
  rw [← ha.rest, ← hb.rest]
  rfl

variable (side) in
theorem LikeProp.sides {a' a b' b : Saprop} (ha : LikeProp ph1 a' a) (hb : LikeProp ph1 b' b) :
    List.Forall₂ (Like ph1) (drivingOf side a' b') (drivingOf side a b) ∧
      List.Forall₂ (Like ph1) (searchedOf side a' b') (searchedOf side a b) := by
  cases side
  · exact ⟨ha.head, hb.head⟩
  · exact ⟨hb.head, ha.head⟩

variable (side) in
/-- A comparison comes out the same after comparisons made before. -/
theorem cmpsapropAlloc_like {a' a b' b : Saprop} (ha : LikeProp ph1 a' a) (hb : LikeProp ph1 b' b) :
    (cmpsapropAlloc ph1 a' b' side).new = (cmpsapropAlloc ph1 a b side).new := by
  obtain ⟨hdriving, hsearched⟩ := ha.sides side hb
  have hmatched : (matchedOf ph1 side a' b').new = (matchedOf ph1 side a b).new :=
    matchProtos_like ph1 side hdriving hsearched
  have hno : a'.propNo = a.propNo := by rw [← ha.rest]
  apply Option.ext
  intro new
  have h' := cmpsapropAlloc_new ph1 side a' b' new
  have h := cmpsapropAlloc_new ph1 side a b new
  rw [ha.checkLevel hb, ha.head.length_eq, hb.head.length_eq, hmatched, hno] at h'
  exact h'.trans h.symm

variable (side) in
/-- What it leaves of the two proposals. -/
theorem cmpsapropAlloc_leaves {a' a b' b : Saprop} (ha : LikeProp ph1 a' a) (hb : LikeProp ph1 b' b) :
    LikeProp ph1 (cmpsapropAlloc ph1 a' b' side).peer a ∧
      LikeProp ph1 (cmpsapropAlloc ph1 a' b' side).own b := by
  obtain ⟨hd, hs⟩ := matchProtos_lists ph1 side 0 (drivingOf side a' b')
    (forall₂_like_refl ph1 (searchedOf side a' b'))
  have hdriving := forall₂_like_trans ph1 hd (ha.sides side hb).1
  have hsearched := forall₂_like_trans ph1 hs (ha.sides side hb).2
  unfold cmpsapropAlloc
  split
  · exact ⟨ha, hb⟩
  · dsimp only
    split_ifs
    · exact ⟨ha, hb⟩
    · cases side with
      | RESPONDER => exact ⟨⟨ha.rest, hsearched⟩, hb.rest, hdriving⟩
      | INITIATOR => exact ⟨⟨ha.rest, hdriving⟩, hb.rest, hsearched⟩

variable (ph1) (side)

/-- The first of our proposals that goes with one of the peer. -/
def firstAccepted (pr0 : Saprop) (proposal : List Saprop) : Option Saprop :=
  proposal.findSome? fun q2 => (cmpsapropAlloc ph1 pr0 q2 side).new

theorem approvalLoop_eq (pr0' pr0 : Saprop) (proposal' proposal : List Saprop)
    (h0 : LikeProp ph1 pr0' pr0) (h : List.Forall₂ (LikeProp ph1) proposal' proposal) :
    (approvalLoop ph1 side pr0' proposal').1 = firstAccepted ph1 side pr0 proposal ∧
      List.Forall₂ (LikeProp ph1) (approvalLoop ph1 side pr0' proposal').2 proposal := by
  induction h generalizing pr0' with
  | nil => exact ⟨rfl, .nil⟩
  | @cons q2' q2 rest' rest hq hrest ih =>
    have hnew := cmpsapropAlloc_like side h0 hq
    obtain ⟨hpeer, hown⟩ := cmpsapropAlloc_leaves side h0 hq
    unfold approvalLoop firstAccepted
    rw [List.findSome?_cons, ← hnew]
    cases hfound : (cmpsapropAlloc ph1 pr0' q2' side).new with
    | some pr =>
      simp only [hfound]
      exact ⟨trivial, .cons hown hrest⟩
    | none =>
      simp only [hfound]
      obtain ⟨hloop, hleft⟩ := ih _ hpeer
      exact ⟨hloop, .cons hown hleft⟩

/-- What one number comes to. -/
def approvalOf (proposal : List Saprop) (pp : List PropPair) : Option (Saprop × List PropPair) :=
  (aproppair2saprop pp).bind fun pr0 =>
    (firstAccepted ph1 side pr0 proposal).bind fun pr =>
      (pp.mapM (answerPair pr)).map fun ret => (pr, ret)

theorem getPh2approvalx_eq (proposal' proposal : List Saprop) (pp : List PropPair)
    (h : List.Forall₂ (LikeProp ph1) proposal' proposal) :
    (getPh2approvalx ph1 side proposal' pp).1 = approvalOf ph1 side proposal pp ∧
      List.Forall₂ (LikeProp ph1) (getPh2approvalx ph1 side proposal' pp).2 proposal := by
  unfold getPh2approvalx approvalOf
  cases aproppair2saprop pp with
  | none => exact ⟨rfl, h⟩
  | some pr0 =>
    obtain ⟨hloop, hleft⟩ := approvalLoop_eq ph1 side pr0 pr0 proposal' proposal (.refl ph1 pr0) h
    dsimp only [Option.bind_some]
    rw [← hloop]
    rcases hresult : approvalLoop ph1 side pr0 proposal' with ⟨_ | pr, left⟩
    · rw [hresult] at hleft
      exact ⟨rfl, hleft⟩
    · rw [hresult] at hleft
      exact ⟨rfl, hleft⟩

/-- The loop over the numbers stops at the first number that comes to something. -/
theorem approvalNumbers_eq (pair : Pairs) (is : List ℕ) (proposal' proposal : List Saprop)
    (h : List.Forall₂ (LikeProp ph1) proposal' proposal) :
    approvalNumbers ph1 side pair is proposal' =
      is.findSome? fun i => approvalOf ph1 side proposal (pair i) := by
  induction is generalizing proposal' with
  | nil => rfl
  | cons i is ih =>
    obtain ⟨heq, hleft⟩ := getPh2approvalx_eq ph1 side proposal' proposal (pair i) h
    unfold approvalNumbers
    rw [List.findSome?_cons]
    by_cases hempty : pair i = []
    · have hnone : approvalOf ph1 side proposal (pair i) = none := by
        rw [hempty]
        rfl
      rw [if_pos hempty, hnone]
      exact ih proposal' h
    · rw [if_neg hempty, ← heq]
      rcases hresult : getPh2approvalx ph1 side proposal' (pair i) with ⟨_ | found, left⟩
      · rw [hresult] at hleft
        exact ih left hleft
      · rfl

theorem forall₂_likeProp_refl (proposal : List Saprop) :
    List.Forall₂ (LikeProp ph1) proposal proposal :=
  List.forall₂_same.mpr fun pp _ => .refl ph1 pp

instance (pp1 pp2 : Saprop) : Decidable (FirstMatches ph1 side pp1 pp2) :=
  decidable_of_iff _ (cmpsapropAlloc_ne_none ph1 side pp1 pp2)

/-- The proposal of ours that is accepted is the first that matches. -/
theorem firstAccepted_some (pr0 : Saprop) (proposal : List Saprop) (approval : Saprop)
    (h : firstAccepted ph1 side pr0 proposal = some approval) :
    ∃ own ∈ proposal, proposal.find? (fun q2 => FirstMatches ph1 side pr0 q2) = some own ∧
      (cmpsapropAlloc ph1 pr0 own side).new = some approval := by
  obtain ⟨before, own, after, hsplit, hown, hbefore⟩ := List.findSome?_eq_some_iff.mp h
  refine ⟨own, by simp [hsplit], ?_, hown⟩
  rw [hsplit, List.find?_eq_some_iff_append]
  refine ⟨?_, before, after, rfl, fun q hq => ?_⟩
  · have hmatches := (cmpsapropAlloc_ne_none ph1 side pr0 own).mp (by simp [hown])
    simpa using hmatches
  · have hno := (cmpsapropAlloc_ne_none ph1 side pr0 q).not.mp (by simp [hbefore q hq])
    simpa using hno

/-- The first number that comes to something. -/
def firstNumber (proposal : List Saprop) (pair : Pairs) : Option ℕ :=
  (List.range MAXPROPPAIRLEN).find? fun i => (approvalOf ph1 side proposal (pair i)).isSome

/-- The number, the proposal of the peer and ours that an approval comes from. -/
theorem getPh2approval_some (proposal : List Saprop) (pair : Pairs) (approval : Saprop)
    (ret : List PropPair) (h : getPh2approval ph1 side proposal pair = some (approval, ret)) :
    ∃ i pr0, i < MAXPROPPAIRLEN ∧ firstNumber ph1 side proposal pair = some i ∧
      aproppair2saprop (pair i) = some pr0 ∧ firstAccepted ph1 side pr0 proposal = some approval ∧
      (pair i).mapM (answerPair approval) = some ret := by
  rw [getPh2approval, approvalNumbers_eq ph1 side pair _ proposal proposal
    (forall₂_likeProp_refl ph1 proposal)] at h
  obtain ⟨before, i, after, hsplit, hi, hbefore⟩ := List.findSome?_eq_some_iff.mp h
  have hlt : i ∈ List.range MAXPROPPAIRLEN := by simp [hsplit]
  have hfirst : firstNumber ph1 side proposal pair = some i := by
    rw [firstNumber, hsplit, List.find?_eq_some_iff_append]
    exact ⟨by simp [hi], before, after, rfl, fun j hj => by simp [hbefore j hj]⟩
  obtain ⟨pr0, hdecoded, hi⟩ := Option.bind_eq_some_iff.mp hi
  obtain ⟨pr, haccepted, hi⟩ := Option.bind_eq_some_iff.mp hi
  obtain ⟨answer, hanswer, hi⟩ := Option.map_eq_some_iff.mp hi
  obtain ⟨rfl, rfl⟩ := Prod.mk.inj hi
  exact ⟨i, pr0, List.mem_range.mp hlt, hfirst, hdecoded, haccepted, hanswer⟩

end

end WanStack.Racoon.Phase2
