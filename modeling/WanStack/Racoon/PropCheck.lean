import WanStack.Racoon.Proposal
import Mathlib.Data.List.Perm.Subperm
import Mathlib.Data.List.Nodup
import Mathlib.Data.List.Forall2
import Mathlib.Tactic.SplitIfs

set_option autoImplicit false

/-!
# What the check level promises

The pairs that `cmpsaprop_alloc` takes are found by the protocol alone. The
loop is first described on the lists as they were given; what a common choice
is, and what is asked of the proposal returned, is stated apart from it.
-/
namespace WanStack.Racoon.Proposal

/-! ### The first element with a key -/

theorem map_eq_of_forall₂ {α β κ : Type} {r : α → β → Prop} {f : α → κ} {g : β → κ}
    (hr : ∀ a b, r a b → f a = g b) {l : List α} {l' : List β} (h : List.Forall₂ r l l') :
    l.map f = l'.map g := by
  induction h with
  | nil => rfl
  | cons hab _ ih => rw [List.map_cons, List.map_cons, hr _ _ hab, ih]

section
variable {β κ : Type} [DecidableEq κ] (key : β → κ)

theorem length_takeWhile_ne (l : List β) (k : κ) :
    (l.takeWhile fun x => key x ≠ k).length = (l.map key).idxOf k := by
  induction l with
  | nil => rfl
  | cons b l ih =>
    by_cases hb : key b = k
    · simp [hb]
    · rw [List.takeWhile_cons_of_pos (by simpa using hb), List.map_cons,
        List.idxOf_cons_ne _ hb, List.length_cons, ih]

theorem dropWhile_ne (l : List β) (k : κ) :
    (l.dropWhile fun x => key x ≠ k).head? = l.find? fun x => key x = k := by
  induction l with
  | nil => rfl
  | cons b l ih =>
    by_cases hb : key b = k
    · simp [hb]
    · simpa [hb] using ih

theorem find_place (l : List β) (k : κ) :
    l[(l.map key).idxOf k]? = l.find? fun x => key x = k := by
  induction l with
  | nil => rfl
  | cons b l ih =>
    by_cases hb : key b = k
    · simp [hb]
    · rw [List.map_cons, List.idxOf_cons_ne _ hb, List.getElem?_cons_succ, ih,
        List.find?_cons_of_neg (by simpa using hb)]

theorem find_of_nodup (l : List β) (x : β) (hl : (l.map key).Nodup) (hx : x ∈ l) :
    l.find? (fun y => key y = key x) = some x := by
  cases hfind : l.find? fun y => key y = key x with
  | none =>
    have hno := List.find?_eq_none.mp hfind x hx
    simp at hno
  | some y =>
    have hy : key y = key x := by simpa using List.find?_some hfind
    rw [List.inj_on_of_nodup_map hl (List.mem_of_find?_eq_some hfind) hx hy]

/-- Every place is taken once if and only if the keys are distinct. -/
theorem places_perm_iff (ks ls : List κ) (hsub : ∀ k ∈ ks, k ∈ ls) (hlen : ks.length = ls.length) :
    (ks.map fun k => ls.idxOf k).Perm (List.range ls.length) ↔ ks.Nodup := by
  constructor
  · intro hperm
    exact List.Nodup.of_map _ (hperm.nodup_iff.mpr List.nodup_range)
  · intro hks
    have hnodup : (ks.map fun k => ls.idxOf k).Nodup := by
      refine List.Nodup.map_on (fun x hx y _ hxy => ?_) hks
      exact (List.idxOf_inj (hsub x hx)).mp hxy
    refine (List.subperm_of_subset hnodup fun i hi => ?_).perm_of_length_le (by simp [hlen])
    obtain ⟨k, hk, rfl⟩ := List.mem_map.mp hi
    exact List.mem_range.mpr (List.idxOf_lt_length_of_mem (hsub k hk))

end

/-! ### One pair -/

variable (ph1 : Ph1)

@[simp] theorem adjustEncmode_protoId (pr : Saproto) :
    (adjustEncmode ph1 pr).protoId = pr.protoId := by
  unfold adjustEncmode
  split <;> rfl

@[simp] theorem adjustEncmode_spisize (pr : Saproto) :
    (adjustEncmode ph1 pr).spisize = pr.spisize := by
  unfold adjustEncmode
  split <;> rfl

@[simp] theorem adjustEncmode_head (pr : Saproto) : (adjustEncmode ph1 pr).head = pr.head := by
  unfold adjustEncmode
  split <;> rfl

@[simp] theorem adjustEncmode_spi (pr : Saproto) : (adjustEncmode ph1 pr).spi = pr.spi := by
  unfold adjustEncmode
  split <;> rfl

/-- No mode is changed twice. -/
theorem nattUdpEncap_adjusted (version : NattVersion) (encmode : ℤ) (h : nattUdpEncap encmode) :
    nattUdpEncap (encmode - version.modeUdpDiff) = false := by
  simp only [nattUdpEncap, Bool.or_eq_true, decide_eq_true_eq] at h
  rcases h with ((h | h) | h) | h <;> subst h <;> cases version <;> rfl

@[simp] theorem adjustEncmode_idem (pr : Saproto) :
    adjustEncmode ph1 (adjustEncmode ph1 pr) = adjustEncmode ph1 pr := by
  by_cases h : (ph1.natDetected && nattUdpEncap pr.encmode) = true
  · obtain ⟨hnat, hudp⟩ := Bool.and_eq_true_iff.mp h
    simp [adjustEncmode, h, nattUdpEncap_adjusted ph1.natt pr.encmode hudp]
  · simp [adjustEncmode, h]

/-- The value of a round depends on the two protocols as adjusted only. -/
theorem matchProto_new (pr1 pr2 : Saproto) :
    (matchProto ph1 pr1 pr2).1 =
      if !spisizematch pr1 pr2 then none else
      if (adjustEncmode ph1 pr1).encmode ≠ (adjustEncmode ph1 pr2).encmode then none else
      (findTrns ph1.pcheckLevel pr1.head pr2.head).map
        (newProto (adjustEncmode ph1 pr1) (adjustEncmode ph1 pr2)) := by
  unfold matchProto
  dsimp only
  split_ifs <;> simp

/-- A protocol as it was, or adjusted. -/
def Like (pr' pr : Saproto) : Prop := pr' = pr ∨ pr' = adjustEncmode ph1 pr

theorem Like.adjust {pr' pr : Saproto} (h : Like ph1 pr' pr) :
    adjustEncmode ph1 pr' = adjustEncmode ph1 pr := by
  rcases h with rfl | rfl
  · rfl
  · simp

theorem Like.protoId {pr' pr : Saproto} (h : Like ph1 pr' pr) : pr'.protoId = pr.protoId := by
  rcases h with rfl | rfl <;> simp

theorem Like.adjusted {pr' pr : Saproto} (h : Like ph1 pr' pr) :
    Like ph1 (adjustEncmode ph1 pr') pr := .inr (h.adjust ph1)

theorem spisizematch_like {a' a b' b : Saproto} (ha : Like ph1 a' a) (hb : Like ph1 b' b) :
    spisizematch a' b' = spisizematch a b := by
  rcases ha with rfl | rfl <;> rcases hb with rfl | rfl <;> simp [spisizematch]

theorem matchProto_like {a' a b' b : Saproto} (ha : Like ph1 a' a) (hb : Like ph1 b' b) :
    (matchProto ph1 a' b').1 = (matchProto ph1 a b).1 ∧
      Like ph1 (matchProto ph1 a' b').2.1 a ∧ Like ph1 (matchProto ph1 a' b').2.2 b := by
  have hheads : a'.head = a.head ∧ b'.head = b.head := by
    rcases ha with rfl | rfl <;> rcases hb with rfl | rfl <;> simp
  refine ⟨?_, ?_⟩
  · rw [matchProto_new, matchProto_new, spisizematch_like ph1 ha hb, ha.adjust, hb.adjust,
      hheads.1, hheads.2]
  · unfold matchProto
    dsimp only
    split_ifs
    · exact ⟨ha, hb⟩
    · exact ⟨ha.adjusted, hb.adjusted⟩
    · exact ⟨ha.adjusted, hb.adjusted⟩

theorem matchSide_like (side : Side) {pr' pr x' x : Saproto} (hpr : Like ph1 pr' pr)
    (hx : Like ph1 x' x) :
    (matchSide ph1 side pr' x').1 = (matchSide ph1 side pr x).1 ∧
      Like ph1 (matchSide ph1 side pr' x').2.1 pr ∧ Like ph1 (matchSide ph1 side pr' x').2.2 x := by
  cases side with
  | RESPONDER =>
    obtain ⟨hnew, hx', hpr'⟩ := matchProto_like ph1 hx hpr
    exact ⟨hnew, hpr', hx'⟩
  | INITIATOR => exact matchProto_like ph1 hpr hx

/-! ### The loop -/

/-- The first protocol of the list with the protocol of `pr`. -/
def firstLike (pr : Saproto) (searched : List Saproto) : Option Saproto :=
  searched.find? fun x => x.protoId = pr.protoId

/-- The protocol built for `pr` from the lists as they were given. -/
def built (side : Side) (searched : List Saproto) (pr : Saproto) : Option Saproto :=
  (firstLike pr searched).bind fun x => (matchSide ph1 side pr x).1

theorem forall₂_like_refl (l : List Saproto) : List.Forall₂ (Like ph1) l l :=
  List.forall₂_same.mpr fun _ _ => .inl rfl

theorem protoIds_like {l' l : List Saproto} (h : List.Forall₂ (Like ph1) l' l) :
    l'.map Saproto.protoId = l.map Saproto.protoId :=
  map_eq_of_forall₂ (fun _ _ hx => hx.protoId ph1) h

/-- Where the loop finds a protocol in the list as it is now, it finds the same
    protocol in the list as it was given. -/
theorem dropWhile_like (pr : Saproto) {searched' searched : List Saproto}
    (h : List.Forall₂ (Like ph1) searched' searched) :
    (searched'.dropWhile (fun x => x.protoId ≠ pr.protoId) = [] ∧ firstLike pr searched = none) ∨
      ∃ x' after x, searched'.dropWhile (fun x => x.protoId ≠ pr.protoId) = x' :: after ∧
        firstLike pr searched = some x ∧ Like ph1 x' x ∧
        ∀ y, Like ph1 y x → List.Forall₂ (Like ph1)
          (searched'.takeWhile (fun x => x.protoId ≠ pr.protoId) ++ y :: after) searched := by
  induction h with
  | nil => exact .inl ⟨rfl, rfl⟩
  | @cons x' x searched' searched hx hrest ih =>
    by_cases hid : x.protoId = pr.protoId
    · have hid' : x'.protoId = pr.protoId := hx.protoId.trans hid
      refine .inr ⟨x', searched', x, by simp [hid'], by simp [firstLike, hid], hx, fun y hy => ?_⟩
      simpa [hid'] using ⟨hy, hrest⟩
    · have hid' : x'.protoId ≠ pr.protoId := fun h => hid (hx.protoId.symm.trans h)
      rcases ih with ⟨hdrop, hfirst⟩ | ⟨y', after, y, hdrop, hfirst, hy, hput⟩
      · exact .inl ⟨by simpa [hid'] using hdrop, by simpa [firstLike, hid] using hfirst⟩
      · refine .inr ⟨y', after, y, by simpa [hid'] using hdrop,
          by simpa [firstLike, hid] using hfirst, hy, fun z hz => ?_⟩
        have hz' := hput z hz
        simp only [ne_eq, decide_not] at hz'
        simpa [hid'] using ⟨hx, hz'⟩

variable (side : Side)

theorem matchProtos_lists (k : ℕ) (driving : List Saproto) {searched' searched : List Saproto}
    (h : List.Forall₂ (Like ph1) searched' searched) :
    List.Forall₂ (Like ph1) (matchProtos ph1 side k driving searched').driving driving ∧
      List.Forall₂ (Like ph1) (matchProtos ph1 side k driving searched').searched searched := by
  induction driving generalizing k searched' with
  | nil => exact ⟨.nil, h⟩
  | cons pr rest ih =>
    unfold matchProtos
    rcases dropWhile_like ph1 pr h with ⟨hdrop, -⟩ | ⟨x', after, x, hdrop, -, hx, hput⟩
    · rw [hdrop]
      exact ⟨forall₂_like_refl ph1 _, h⟩
    · obtain ⟨-, hpr, hx'⟩ := matchSide_like ph1 side (.inl rfl : Like ph1 pr pr) hx
      simp only [hdrop]
      rcases hmatch : matchSide ph1 side pr x' with ⟨_ | new, pr', x''⟩
      · rw [hmatch] at hpr hx'
        exact ⟨.cons hpr (forall₂_like_refl ph1 rest), hput x'' hx'⟩
      · rw [hmatch] at hpr hx'
        obtain ⟨hdriving, hsearched⟩ := ih (k + 1) (hput x'' hx')
        exact ⟨.cons hpr hdriving, hsearched⟩

theorem matchProtos_new (k : ℕ) (driving : List Saproto) {searched' searched : List Saproto}
    (h : List.Forall₂ (Like ph1) searched' searched) (new : List Saproto) :
    (matchProtos ph1 side k driving searched').new = some new ↔
      List.Forall₂ (fun pr n => built ph1 side searched pr = some n) driving new := by
  induction driving generalizing k searched' new with
  | nil =>
    unfold matchProtos
    cases new <;> simp
  | cons pr rest ih =>
    unfold matchProtos
    rcases dropWhile_like ph1 pr h with ⟨hdrop, hfirst⟩ | ⟨x', after, x, hdrop, hfirst, hx, hput⟩
    · simp only [hdrop, List.forall₂_cons_left_iff, built, hfirst]
      simp
    · obtain ⟨hnew, -, hx'⟩ := matchSide_like ph1 side (.inl rfl : Like ph1 pr pr) hx
      have hbuilt : built ph1 side searched pr = (matchSide ph1 side pr x').1 := by
        rw [built, hfirst, Option.bind_some, hnew]
      simp only [hdrop, List.forall₂_cons_left_iff, hbuilt]
      rcases hmatch : matchSide ph1 side pr x' with ⟨_ | n, pr', x''⟩
      · simp
      · rw [hmatch] at hx'
        simp only [Option.map_eq_some_iff, ih (k + 1) (hput x'' hx'), Option.some.injEq]
        constructor
        · rintro ⟨l, hl, rfl⟩
          exact ⟨n, l, rfl, hl, rfl⟩
        · rintro ⟨b, l, rfl, hl, rfl⟩
          exact ⟨l, hl, rfl⟩

/-- The places are those of the driving list in turn, and of the first protocol
    like each in the other list. -/
theorem matchProtos_places (k : ℕ) (driving : List Saproto) {searched' searched : List Saproto}
    (h : List.Forall₂ (Like ph1) searched' searched)
    (hnew : (matchProtos ph1 side k driving searched').new ≠ none) :
    (matchProtos ph1 side k driving searched').places =
      (List.range' k driving.length).zip
        (driving.map fun pr => (searched.map Saproto.protoId).idxOf pr.protoId) := by
  induction driving generalizing k searched' with
  | nil => rfl
  | cons pr rest ih =>
    unfold matchProtos at hnew ⊢
    rcases dropWhile_like ph1 pr h with ⟨hdrop, -⟩ | ⟨x', after, x, hdrop, -, hx, hput⟩
    · simp only [hdrop] at hnew
      exact absurd rfl hnew
    · obtain ⟨-, -, hx'⟩ := matchSide_like ph1 side (.inl rfl : Like ph1 pr pr) hx
      simp only [hdrop] at hnew ⊢
      rcases hmatch : matchSide ph1 side pr x' with ⟨_ | n, pr', x''⟩
      · simp [hmatch] at hnew
      · rw [hmatch] at hx' hnew
        have hrest := ih (k + 1) (hput x'' hx') (by simpa using hnew)
        simp only [hrest, List.length_cons, List.range'_succ, List.map_cons, List.zip_cons_cons,
          length_takeWhile_ne Saproto.protoId, protoIds_like ph1 h]

/-! ### What is asked -/

/-- Same protocol, and same mode once adjusted. -/
def Agree (pr1 pr2 : Saproto) : Prop :=
  pr1.protoId = pr2.protoId ∧ (adjustEncmode ph1 pr1).encmode = (adjustEncmode ph1 pr2).encmode

/-- One transform of both, with the peer's key length. -/
def CommonTrns (level : PropCheck) (tr1 tr2 : Satrns) : Prop :=
  tr1.trnsId = tr2.trnsId ∧ tr1.authtype = tr2.authtype ∧
    match level with
    | .OBEY => True
    | .STRICT | .CLAIM => tr2.encklen ≤ tr1.encklen
    | .EXACT => tr1.encklen = tr2.encklen

/-- Two protocols with a transform to choose. -/
def Common (pr1 pr2 : Saproto) : Prop :=
  Agree ph1 pr1 pr2 ∧ ∃ tr1 ∈ pr1.head, ∃ tr2 ∈ pr2.head, CommonTrns ph1.pcheckLevel tr1 tr2

/-- The protocol `pr` is a choice for the two. -/
def Chosen (pr1 pr2 pr : Saproto) : Prop :=
  Agree ph1 pr1 pr2 ∧ pr.protoId = pr1.protoId ∧ pr.encmode = (adjustEncmode ph1 pr1).encmode ∧
    pr.spi = pr2.spi ∧ pr.spiP = pr1.spi ∧
    ∃ tr1 ∈ pr1.head, ∃ tr2 ∈ pr2.head, CommonTrns ph1.pcheckLevel tr1 tr2 ∧ pr.head = [tr1]

/-- The lifetimes of a proposal against ours. -/
def Within (level : PropCheck) (pp own : Saprop) : Prop :=
  match level with
  | .OBEY => True
  | .STRICT | .CLAIM => pp.lifetime ≤ own.lifetime ∧ pp.lifebyte ≤ own.lifebyte
  | .EXACT => pp.lifetime = own.lifetime ∧ pp.lifebyte = own.lifebyte

/-- What the level asks of a proposal returned for `pp1` and `pp2`. -/
structure Obeys (pp1 pp2 new : Saprop) (places : List (ℕ × ℕ)) : Prop where
  lifetimes : Within ph1.pcheckLevel new pp2
  pfs : pp2.pfsGroup ≠ 0 → new.pfsGroup = pp2.pfsGroup
  peers : (places.map Prod.fst).Perm (List.range pp1.head.length)
  owns : (places.map Prod.snd).Perm (List.range pp2.head.length)
  protos : List.Forall₂ (fun p pr => ∃ pr1 pr2, pp1.head[p.1]? = some pr1 ∧
    pp2.head[p.2]? = some pr2 ∧ Chosen ph1 pr1 pr2 pr) places new.head

/-- There is something to agree on; at claim our lifetimes can be taken. -/
structure CommonChoice (pp1 pp2 : Saprop) : Prop where
  lifetimes : ph1.pcheckLevel ≠ .CLAIM → Within ph1.pcheckLevel pp1 pp2
  pfs : pp2.pfsGroup ≠ 0 → pp1.pfsGroup = pp2.pfsGroup
  protos : ∃ own, own.Perm pp2.head ∧ List.Forall₂ (Common ph1) pp1.head own

/-- Only modes differ. -/
def SameList (l' l : List Saproto) : Prop :=
  List.Forall₂ (fun pr' pr => { pr' with encmode := pr.encmode, udpEncap := pr.udpEncap } = pr) l' l

structure ObeysLevel (pp1 pp2 : Saprop) : Prop where
  sound : ∀ new, (cmpsapropAlloc ph1 pp1 pp2 side).new = some new →
    Obeys ph1 pp1 pp2 new (cmpsapropAlloc ph1 pp1 pp2 side).places
  complete : CommonChoice ph1 pp1 pp2 → (cmpsapropAlloc ph1 pp1 pp2 side).new ≠ none
  peer : { (cmpsapropAlloc ph1 pp1 pp2 side).peer with head := pp1.head } = pp1 ∧
    SameList (cmpsapropAlloc ph1 pp1 pp2 side).peer.head pp1.head
  own : { (cmpsapropAlloc ph1 pp1 pp2 side).own with head := pp2.head } = pp2 ∧
    SameList (cmpsapropAlloc ph1 pp1 pp2 side).own.head pp2.head

/-- The list the loop goes through, and the one it searches. -/
def drivingOf (pp1 pp2 : Saprop) : List Saproto :=
  match side with
  | .RESPONDER => pp2.head
  | .INITIATOR => pp1.head

def searchedOf (pp1 pp2 : Saprop) : List Saproto :=
  match side with
  | .RESPONDER => pp1.head
  | .INITIATOR => pp2.head

/-- The peer's and our protocol of a pair of the loop. -/
def peerOf (pr x : Saproto) : Saproto :=
  match side with
  | .RESPONDER => x
  | .INITIATOR => pr

def ownOf (pr x : Saproto) : Saproto :=
  match side with
  | .RESPONDER => pr
  | .INITIATOR => x

/-- The lifetimes and groups the code lets pass. -/
def LevelPasses (pp1 pp2 : Saprop) : Prop :=
  (ph1.pcheckLevel ≠ .CLAIM → Within ph1.pcheckLevel pp1 pp2) ∧
    (ph1.pcheckLevel ≠ .OBEY → pp2.pfsGroup ≠ 0 → pp1.pfsGroup = pp2.pfsGroup) ∧
    (ph1.pcheckLevel = .EXACT → pp1.pfsGroup = pp2.pfsGroup)

/-- Each protocol of the one list finds its match in the first one like it. -/
structure FirstMatches (pp1 pp2 : Saprop) : Prop where
  level : LevelPasses ph1 pp1 pp2
  lengths : pp1.head.length = pp2.head.length
  protos : ∀ pr ∈ drivingOf side pp1 pp2, ∃ x, firstLike pr (searchedOf side pp1 pp2) = some x ∧
    spisizematch (peerOf side pr x) (ownOf side pr x) ∧
      Common ph1 (peerOf side pr x) (ownOf side pr x)

/-- What keeps the code to the level when there is something to agree on. -/
structure Regular (pp1 pp2 : Saprop) : Prop where
  distinct : ((drivingOf side pp1 pp2).map Saproto.protoId).Nodup
  lifebyte : ph1.pcheckLevel = .CLAIM → pp1.lifebyte ≤ pp2.lifebyte
  pfs : ph1.pcheckLevel = .EXACT → pp2.pfsGroup = 0 → pp1.pfsGroup = 0
  spisize : ∀ pr1 ∈ pp1.head, ∀ pr2 ∈ pp2.head, pr1.protoId = pr2.protoId → spisizematch pr1 pr2

/-! ### One pair, once more -/

theorem cmpsatrns_eq_zero (tr1 tr2 : Satrns) (level : PropCheck) :
    cmpsatrns tr1 tr2 level = 0 ↔ CommonTrns level tr1 tr2 := by
  unfold cmpsatrns CommonTrns
  cases level <;> dsimp only <;> split_ifs <;> simp <;> omega

theorem findTrns_some {level : PropCheck} {head1 head2 : List Satrns} {tr1 : Satrns}
    (h : findTrns level head1 head2 = some tr1) :
    tr1 ∈ head1 ∧ ∃ tr2 ∈ head2, CommonTrns level tr1 tr2 := by
  have hany := List.find?_some h
  obtain ⟨tr2, htr2, hcmp⟩ := List.any_eq_true.mp hany
  exact ⟨List.mem_of_find?_eq_some h, tr2, htr2, (cmpsatrns_eq_zero _ _ _).mp (by simpa using hcmp)⟩

theorem findTrns_ne_none (level : PropCheck) (head1 head2 : List Satrns) :
    findTrns level head1 head2 ≠ none ↔
      ∃ tr1 ∈ head1, ∃ tr2 ∈ head2, CommonTrns level tr1 tr2 := by
  simp [findTrns, List.find?_eq_none, cmpsatrns_eq_zero]

theorem matchSide_new (pr x : Saproto) :
    (matchSide ph1 side pr x).1 = (matchProto ph1 (peerOf side pr x) (ownOf side pr x)).1 := by
  cases side <;> rfl

theorem matchProto_chosen {pr1 pr2 pr : Saproto} (hid : pr1.protoId = pr2.protoId)
    (h : (matchProto ph1 pr1 pr2).1 = some pr) :
    spisizematch pr1 pr2 ∧ Chosen ph1 pr1 pr2 pr := by
  rw [matchProto_new] at h
  split_ifs at h with hspi hmode
  obtain ⟨tr1, htr, rfl⟩ := Option.map_eq_some_iff.mp h
  obtain ⟨htr1, tr2, htr2, hcommon⟩ := findTrns_some htr
  refine ⟨by simpa using hspi, ⟨hid, not_not.mp hmode⟩, ?_, rfl, ?_, ?_, tr1, htr1, tr2, htr2,
    hcommon, rfl⟩ <;> simp [newProto]

theorem matchProto_ne_none {pr1 pr2 : Saproto} (hid : pr1.protoId = pr2.protoId) :
    (matchProto ph1 pr1 pr2).1 ≠ none ↔ spisizematch pr1 pr2 ∧ Common ph1 pr1 pr2 := by
  rw [matchProto_new]
  split_ifs with hspi hmode
  · simp at hspi
    simp [hspi]
  · simp [Common, Agree, hmode]
  · simp only [Bool.not_eq_true', Bool.not_eq_false] at hspi
    rw [ne_eq, Option.map_eq_none_iff, ← ne_eq, findTrns_ne_none]
    simp [Common, Agree, hid, not_not.mp hmode, hspi]

/-! ### The whole comparison -/

theorem checkLevel_ne_none (pp1 pp2 : Saprop) :
    checkLevel ph1.pcheckLevel pp1 pp2 ≠ none ↔ LevelPasses ph1 pp1 pp2 := by
  unfold checkLevel LevelPasses Within
  cases ph1.pcheckLevel with
  | OBEY => simp
  | STRICT =>
    dsimp only
    split_ifs <;> simp <;> omega
  | CLAIM =>
    dsimp only
    split_ifs <;> simp <;> omega
  | EXACT =>
    dsimp only
    split_ifs <;> simp <;> omega

/-- The values that are passed on. -/
theorem checkLevel_some {level : PropCheck} {pp1 pp2 : Saprop} {lifetime lifebyte pfsGroup : ℤ}
    {claim : ℕ} (h : checkLevel level pp1 pp2 = some (lifetime, lifebyte, pfsGroup, claim)) :
    lifetime = (if level = .CLAIM then min pp1.lifetime pp2.lifetime else pp1.lifetime) ∧
      lifebyte = pp1.lifebyte ∧ pfsGroup = pp1.pfsGroup := by
  unfold checkLevel at h
  cases level with
  | OBEY =>
    simp only [Option.some.injEq, Prod.mk.injEq] at h
    simp [h]
  | STRICT =>
    dsimp only at h
    split_ifs at h
    simp only [Option.some.injEq, Prod.mk.injEq] at h
    simp [h]
  | CLAIM =>
    dsimp only at h
    rw [if_pos rfl, Int.min_def]
    split_ifs at h ⊢ <;> simp only [Option.some.injEq, Prod.mk.injEq] at h <;>
      exact ⟨h.1.symm, h.2.1.symm, h.2.2.1.symm⟩
  | EXACT =>
    dsimp only at h
    split_ifs at h
    simp only [Option.some.injEq, Prod.mk.injEq] at h
    simp [h]

/-- The loop on the lists of two proposals. -/
def matchedOf (pp1 pp2 : Saprop) : Matched :=
  matchProtos ph1 side 0 (drivingOf side pp1 pp2) (searchedOf side pp1 pp2)

def sidePlaces (places : List (ℕ × ℕ)) : List (ℕ × ℕ) :=
  match side with
  | .RESPONDER => places.map Prod.swap
  | .INITIATOR => places

theorem cmpsapropAlloc_new (pp1 pp2 new : Saprop) :
    (cmpsapropAlloc ph1 pp1 pp2 side).new = some new ↔
      ∃ lifetime lifebyte pfsGroup claim head,
        checkLevel ph1.pcheckLevel pp1 pp2 = some (lifetime, lifebyte, pfsGroup, claim) ∧
        pp1.head.length = pp2.head.length ∧ (matchedOf ph1 side pp1 pp2).new = some head ∧
        new = Saprop.mk pp1.propNo lifetime lifebyte pfsGroup claim head := by
  unfold cmpsapropAlloc
  rcases checkLevel ph1.pcheckLevel pp1 pp2 with - | ⟨lifetime, lifebyte, pfsGroup, claim⟩
  · simp
  · by_cases hlen : pp1.head.length = pp2.head.length
    · have hsome : ∀ o : Option (List Saproto),
          o.map (Saprop.mk pp1.propNo lifetime lifebyte pfsGroup claim) = some new ↔
            ∃ head, o = some head ∧
              new = Saprop.mk pp1.propNo lifetime lifebyte pfsGroup claim head := by
        intro o
        cases o <;> simp [eq_comm]
      cases side <;> simp [hlen, matchedOf, drivingOf, searchedOf, hsome]
    · simp [hlen]

theorem cmpsapropAlloc_places {pp1 pp2 : Saprop}
    (h : (cmpsapropAlloc ph1 pp1 pp2 side).new ≠ none) :
    (cmpsapropAlloc ph1 pp1 pp2 side).places = sidePlaces side (matchedOf ph1 side pp1 pp2).places := by
  obtain ⟨new, hnew⟩ := Option.ne_none_iff_exists'.mp h
  obtain ⟨lifetime, lifebyte, pfsGroup, claim, head, hlevel, hlen, -, -⟩ :=
    (cmpsapropAlloc_new ph1 side pp1 pp2 new).mp hnew
  unfold cmpsapropAlloc
  cases side <;> simp [hlevel, hlen, matchedOf, drivingOf, searchedOf, sidePlaces]

theorem sameList_like {l' l : List Saproto} (h : List.Forall₂ (Like ph1) l' l) : SameList l' l := by
  refine h.imp fun pr' pr hlike => ?_
  rcases hlike with rfl | rfl
  · rfl
  · unfold adjustEncmode
    split <;> rfl

theorem sameList_refl (l : List Saproto) : SameList l l :=
  List.forall₂_same.mpr fun _ _ => rfl

/-- The lists given stay as they were, but for modes. -/
theorem cmpsapropAlloc_lists (pp1 pp2 : Saprop) :
    ({ (cmpsapropAlloc ph1 pp1 pp2 side).peer with head := pp1.head } = pp1 ∧
        SameList (cmpsapropAlloc ph1 pp1 pp2 side).peer.head pp1.head) ∧
      ({ (cmpsapropAlloc ph1 pp1 pp2 side).own with head := pp2.head } = pp2 ∧
        SameList (cmpsapropAlloc ph1 pp1 pp2 side).own.head pp2.head) := by
  obtain ⟨hdriving, hsearched⟩ := matchProtos_lists ph1 side 0 (drivingOf side pp1 pp2)
    (forall₂_like_refl ph1 (searchedOf side pp1 pp2))
  unfold cmpsapropAlloc
  split
  · exact ⟨⟨rfl, sameList_refl _⟩, rfl, sameList_refl _⟩
  · dsimp only
    split_ifs
    · exact ⟨⟨rfl, sameList_refl _⟩, rfl, sameList_refl _⟩
    · cases side with
      | RESPONDER =>
        exact ⟨⟨rfl, sameList_like ph1 hsearched⟩, rfl, sameList_like ph1 hdriving⟩
      | INITIATOR =>
        exact ⟨⟨rfl, sameList_like ph1 hdriving⟩, rfl, sameList_like ph1 hsearched⟩

theorem firstLike_protoId {pr x : Saproto} {l : List Saproto} (h : firstLike pr l = some x) :
    x ∈ l ∧ x.protoId = pr.protoId :=
  ⟨List.mem_of_find?_eq_some h, by simpa using List.find?_some h⟩

theorem sides_protoId {pr x : Saproto} (h : x.protoId = pr.protoId) :
    (peerOf side pr x).protoId = (ownOf side pr x).protoId := by
  cases side
  · exact h.symm
  · exact h

theorem exists_forall₂ {α β : Type} {r : α → β → Prop} (l : List α) (h : ∀ a ∈ l, ∃ b, r a b) :
    ∃ l', List.Forall₂ r l l' := by
  induction l with
  | nil => exact ⟨[], .nil⟩
  | cons a l ih =>
    obtain ⟨b, hb⟩ := h a List.mem_cons_self
    obtain ⟨l', hl'⟩ := ih fun a ha => h a (List.mem_cons_of_mem _ ha)
    exact ⟨b :: l', .cons hb hl'⟩

theorem forall₂_left {α β : Type} {r : α → β → Prop} {l : List α} {l' : List β}
    (h : List.Forall₂ r l l') : ∀ a ∈ l, ∃ b ∈ l', r a b := by
  induction h with
  | nil => intro a ha; cases ha
  | cons hab _ ih =>
    intro a ha
    rcases List.mem_cons.mp ha with rfl | ha
    · exact ⟨_, List.mem_cons_self, hab⟩
    · obtain ⟨b, hb, hr⟩ := ih a ha
      exact ⟨b, List.mem_cons_of_mem _ hb, hr⟩

/-- A proposal is returned if and only if the first matches are there. -/
theorem cmpsapropAlloc_ne_none (pp1 pp2 : Saprop) :
    (cmpsapropAlloc ph1 pp1 pp2 side).new ≠ none ↔ FirstMatches ph1 side pp1 pp2 := by
  have hloop := matchProtos_new ph1 side 0 (drivingOf side pp1 pp2)
    (forall₂_like_refl ph1 (searchedOf side pp1 pp2))
  constructor
  · intro h
    obtain ⟨new, hnew⟩ := Option.ne_none_iff_exists'.mp h
    obtain ⟨lifetime, lifebyte, pfsGroup, claim, head, hlevel, hlen, hhead, -⟩ :=
      (cmpsapropAlloc_new ph1 side pp1 pp2 new).mp hnew
    refine ⟨(checkLevel_ne_none ph1 pp1 pp2).mp (by simp [hlevel]), hlen, fun pr hpr => ?_⟩
    obtain ⟨n, -, hn⟩ := forall₂_left ((hloop head).mp hhead) pr hpr
    obtain ⟨x, hx, hmatch⟩ := Option.bind_eq_some_iff.mp hn
    have hid := sides_protoId side (firstLike_protoId hx).2
    rw [matchSide_new] at hmatch
    exact ⟨x, hx, (matchProto_ne_none ph1 hid).mp (by simp [hmatch])⟩
  · intro h
    obtain ⟨⟨lifetime, lifebyte, pfsGroup, claim⟩, hlevel⟩ :=
      Option.ne_none_iff_exists'.mp ((checkLevel_ne_none ph1 pp1 pp2).mpr h.level)
    obtain ⟨head, hhead⟩ := exists_forall₂ (r := fun pr n =>
        built ph1 side (searchedOf side pp1 pp2) pr = some n) (drivingOf side pp1 pp2)
      fun pr hpr => by
        obtain ⟨x, hx, hmatch⟩ := h.protos pr hpr
        have hid := sides_protoId side (firstLike_protoId hx).2
        rw [← Option.ne_none_iff_exists', built, hx, Option.bind_some, matchSide_new]
        exact (matchProto_ne_none ph1 hid).mpr hmatch
    rw [Option.ne_none_iff_exists']
    exact ⟨_, (cmpsapropAlloc_new ph1 side pp1 pp2 _).mpr
      ⟨lifetime, lifebyte, pfsGroup, claim, head, hlevel, h.lengths, (hloop head).mpr hhead, rfl⟩⟩

/-! ### The places taken -/

theorem forall₂_right {α β : Type} {r : α → β → Prop} {l : List α} {l' : List β}
    (h : List.Forall₂ r l l') : ∀ b ∈ l', ∃ a ∈ l, r a b :=
  forall₂_left h.flip

/-- A list of pairs (place, image) beside a list built from the elements. -/
theorem forall₂_places {α β : Type} {P : α → β → Prop} {r : ℕ × ℕ → β → Prop} (idx : α → ℕ) (k : ℕ)
    {l full : List α} {l' : List β} (h : List.Forall₂ P l l') (hfull : ∀ j, l[j]? = full[k + j]?)
    (hr : ∀ i a b, full[i]? = some a → P a b → r (i, idx a) b) :
    List.Forall₂ r ((List.range' k l.length).zip (l.map idx)) l' := by
  induction h generalizing k with
  | nil => exact .nil
  | @cons a b l l' hab _ ih =>
    rw [List.length_cons, List.range'_succ, List.map_cons, List.zip_cons_cons]
    refine .cons (hr k a b ?_ hab) (ih (k + 1) fun j => ?_)
    · simpa using (hfull 0).symm
    · rw [Nat.add_assoc, Nat.add_comm 1 j]
      simpa using hfull (j + 1)

section
variable {ph1 side} {pp1 pp2 new : Saprop}

theorem FirstMatches.known (h : FirstMatches ph1 side pp1 pp2) :
    ∀ k ∈ (drivingOf side pp1 pp2).map Saproto.protoId,
      k ∈ (searchedOf side pp1 pp2).map Saproto.protoId := by
  intro k hk
  obtain ⟨pr, hpr, rfl⟩ := List.mem_map.mp hk
  obtain ⟨x, hx, -⟩ := h.protos pr hpr
  exact List.mem_map.mpr ⟨x, firstLike_protoId hx⟩

theorem lengths_eq (hlen : pp1.head.length = pp2.head.length) :
    (drivingOf side pp1 pp2).length = (searchedOf side pp1 pp2).length := by
  cases side
  · exact hlen
  · exact hlen.symm

theorem matchedOf_ne_none (hnew : (cmpsapropAlloc ph1 pp1 pp2 side).new ≠ none) :
    (matchedOf ph1 side pp1 pp2).new ≠ none := by
  obtain ⟨new, hnew⟩ := Option.ne_none_iff_exists'.mp hnew
  obtain ⟨_, _, _, _, head, -, -, hhead, -⟩ := (cmpsapropAlloc_new ph1 side pp1 pp2 new).mp hnew
  simp [hhead]

/-- The places of the searched list are all taken once if and only if no
    protocol is repeated in the driving list. -/
theorem places_distinct (hnew : (cmpsapropAlloc ph1 pp1 pp2 side).new ≠ none) :
    (((cmpsapropAlloc ph1 pp1 pp2 side).places.map Prod.fst).Perm (List.range pp1.head.length) ∧
        ((cmpsapropAlloc ph1 pp1 pp2 side).places.map Prod.snd).Perm
          (List.range pp2.head.length)) ↔
      ((drivingOf side pp1 pp2).map Saproto.protoId).Nodup := by
  have hfirst := (cmpsapropAlloc_ne_none ph1 side pp1 pp2).mp hnew
  have hlen : (drivingOf side pp1 pp2).length = (searchedOf side pp1 pp2).length :=
    lengths_eq hfirst.lengths
  have hplaces := matchProtos_places ph1 side 0 (drivingOf side pp1 pp2)
    (forall₂_like_refl ph1 (searchedOf side pp1 pp2)) (matchedOf_ne_none hnew)
  have hfst : (matchedOf ph1 side pp1 pp2).places.map Prod.fst =
      List.range (drivingOf side pp1 pp2).length := by
    rw [matchedOf, hplaces, List.map_fst_zip (by simp), List.range_eq_range']
  have hsnd : (matchedOf ph1 side pp1 pp2).places.map Prod.snd =
      ((drivingOf side pp1 pp2).map Saproto.protoId).map
        fun k => ((searchedOf side pp1 pp2).map Saproto.protoId).idxOf k := by
    rw [matchedOf, hplaces, List.map_snd_zip (by simp), List.map_map]
    rfl
  have hperm := places_perm_iff _ _ hfirst.known (by simpa using hlen)
  rw [← hsnd, List.length_map] at hperm
  rw [cmpsapropAlloc_places ph1 side hnew]
  cases side with
  | RESPONDER =>
    have hswap : (Prod.fst ∘ Prod.swap : ℕ × ℕ → ℕ) = Prod.snd ∧
        (Prod.snd ∘ Prod.swap : ℕ × ℕ → ℕ) = Prod.fst := ⟨rfl, rfl⟩
    simp only [sidePlaces, List.map_map, hswap.1, hswap.2]
    rw [hfst]
    exact ⟨fun h => hperm.mp h.1, fun h => ⟨hperm.mpr h, .refl _⟩⟩
  | INITIATOR =>
    simp only [sidePlaces]
    rw [hfst]
    exact ⟨fun h => hperm.mp h.2, fun h => ⟨.refl _, hperm.mpr h⟩⟩

/-- Each new protocol is a choice for the protocols at its places. -/
theorem places_chosen (hnew : (cmpsapropAlloc ph1 pp1 pp2 side).new = some new) :
    List.Forall₂ (fun p pr => ∃ pr1 pr2, pp1.head[p.1]? = some pr1 ∧ pp2.head[p.2]? = some pr2 ∧
      Chosen ph1 pr1 pr2 pr) (cmpsapropAlloc ph1 pp1 pp2 side).places new.head := by
  have hne : (cmpsapropAlloc ph1 pp1 pp2 side).new ≠ none := by simp [hnew]
  obtain ⟨_, _, _, _, head, -, -, hhead, rfl⟩ := (cmpsapropAlloc_new ph1 side pp1 pp2 new).mp hnew
  have hbuilt := (matchProtos_new ph1 side 0 (drivingOf side pp1 pp2)
    (forall₂_like_refl ph1 (searchedOf side pp1 pp2)) head).mp hhead
  have hpairs : List.Forall₂ (fun p n => ∃ pr x, (drivingOf side pp1 pp2)[p.1]? = some pr ∧
      (searchedOf side pp1 pp2)[p.2]? = some x ∧ Chosen ph1 (peerOf side pr x) (ownOf side pr x) n)
      (matchedOf ph1 side pp1 pp2).places head := by
    rw [matchedOf, matchProtos_places ph1 side 0 (drivingOf side pp1 pp2)
      (forall₂_like_refl ph1 (searchedOf side pp1 pp2)) (matchedOf_ne_none hne)]
    refine forall₂_places _ 0 hbuilt (fun j => by rw [Nat.zero_add]) fun i pr n hi hn => ?_
    obtain ⟨x, hx, hmatch⟩ := Option.bind_eq_some_iff.mp hn
    have hid := sides_protoId side (firstLike_protoId hx).2
    rw [matchSide_new] at hmatch
    exact ⟨pr, x, hi, (find_place Saproto.protoId _ _).trans hx, (matchProto_chosen ph1 hid hmatch).2⟩
  rw [cmpsapropAlloc_places ph1 side hne]
  cases side with
  | RESPONDER =>
    rw [sidePlaces, List.forall₂_map_left_iff]
    exact hpairs.imp fun p n ⟨pr, x, hpr, hx, hchosen⟩ => ⟨x, pr, hx, hpr, hchosen⟩
  | INITIATOR => exact hpairs.imp fun p n ⟨pr, x, hpr, hx, hchosen⟩ => ⟨pr, x, hpr, hx, hchosen⟩

/-- What is returned obeys the level if and only if the places are taken once,
    and the claim level has nothing to clamp in the byte lifetime. -/
theorem obeys_iff (hlevel : ph1.pcheckLevel ≠ .OBEY)
    (hnew : (cmpsapropAlloc ph1 pp1 pp2 side).new = some new) :
    Obeys ph1 pp1 pp2 new (cmpsapropAlloc ph1 pp1 pp2 side).places ↔
      (ph1.pcheckLevel = .CLAIM → pp1.lifebyte ≤ pp2.lifebyte) ∧
        ((drivingOf side pp1 pp2).map Saproto.protoId).Nodup := by
  have hne : (cmpsapropAlloc ph1 pp1 pp2 side).new ≠ none := by simp [hnew]
  obtain ⟨lifetime, lifebyte, pfsGroup, claim, head, hcheck, -, -, hval⟩ :=
    (cmpsapropAlloc_new ph1 side pp1 pp2 new).mp hnew
  obtain ⟨hlifetime, hlifebyte, hpfs⟩ := checkLevel_some hcheck
  have hpasses := (checkLevel_ne_none ph1 pp1 pp2).mp (by simp [hcheck])
  constructor
  · intro h
    refine ⟨fun hclaim => ?_, (places_distinct hne).mp ⟨h.peers, h.owns⟩⟩
    have hwithin := h.lifetimes
    rw [hclaim, hval] at hwithin
    exact hlifebyte ▸ hwithin.2
  · rintro ⟨hclaim, hdistinct⟩
    obtain ⟨hpeers, howns⟩ := (places_distinct hne).mpr hdistinct
    refine ⟨?_, fun hown => ?_, hpeers, howns, places_chosen hnew⟩
    · by_cases hc : ph1.pcheckLevel = .CLAIM
      · rw [hc, hval]
        rw [if_pos hc] at hlifetime
        exact ⟨hlifetime ▸ Int.min_le_right _ _, hlifebyte ▸ hclaim hc⟩
      · have hwithin := hpasses.1 hc
        rw [if_neg hc] at hlifetime
        rw [hval]
        simpa [Within, hlifetime, hlifebyte] using hwithin
    · rw [hval]
      exact hpfs.trans (hpasses.2.1 hlevel hown)

/-- With no protocol repeated, the first match is the one of any common choice. -/
theorem firstMatches_iff (hchoice : CommonChoice ph1 pp1 pp2)
    (hdistinct : ((drivingOf side pp1 pp2).map Saproto.protoId).Nodup) :
    FirstMatches ph1 side pp1 pp2 ↔
      (ph1.pcheckLevel = .EXACT → pp2.pfsGroup = 0 → pp1.pfsGroup = 0) ∧
        ∀ pr1 ∈ pp1.head, ∀ pr2 ∈ pp2.head, pr1.protoId = pr2.protoId → spisizematch pr1 pr2 := by
  obtain ⟨own, hperm, hown⟩ := hchoice.protos
  have hids : pp1.head.map Saproto.protoId = own.map Saproto.protoId :=
    map_eq_of_forall₂ (fun _ _ hab => hab.1.1) hown
  have hids2 : (own.map Saproto.protoId).Perm (pp2.head.map Saproto.protoId) := hperm.map _
  -- both lists have each protocol once
  have hboth : (pp1.head.map Saproto.protoId).Nodup ∧ (pp2.head.map Saproto.protoId).Nodup := by
    cases side with
    | RESPONDER => exact ⟨hids ▸ hids2.nodup_iff.mpr hdistinct, hdistinct⟩
    | INITIATOR => exact ⟨hdistinct, hids2.nodup_iff.mp (hids ▸ hdistinct)⟩
  have hfirst : ∀ pr1 ∈ pp1.head, ∀ pr2 ∈ pp2.head, pr1.protoId = pr2.protoId →
      firstLike pr2 pp1.head = some pr1 ∧ firstLike pr1 pp2.head = some pr2 := by
    intro pr1 h1 pr2 h2 hid
    rw [firstLike, firstLike, ← hid]
    refine ⟨find_of_nodup Saproto.protoId _ pr1 hboth.1 h1, ?_⟩
    rw [hid]
    exact find_of_nodup Saproto.protoId _ pr2 hboth.2 h2
  constructor
  · intro h
    refine ⟨fun hexact hzero => (h.level.2.2 hexact).trans hzero, fun pr1 h1 pr2 h2 hid => ?_⟩
    obtain ⟨hfst, hsnd⟩ := hfirst pr1 h1 pr2 h2 hid
    cases side with
    | RESPONDER =>
      obtain ⟨x, hx, hspi, -⟩ := h.protos pr2 h2
      rw [searchedOf, hfst, Option.some.injEq] at hx
      exact hx ▸ hspi
    | INITIATOR =>
      obtain ⟨x, hx, hspi, -⟩ := h.protos pr1 h1
      rw [searchedOf, hsnd, Option.some.injEq] at hx
      exact hx ▸ hspi
  · rintro ⟨hexact, hspi⟩
    refine ⟨⟨hchoice.lifetimes, fun _ => hchoice.pfs, fun he => ?_⟩,
      hown.length_eq.trans hperm.length_eq, fun pr hpr => ?_⟩
    · by_cases hzero : pp2.pfsGroup = 0
      · rw [hexact he hzero, hzero]
      · exact hchoice.pfs hzero
    · cases side with
      | RESPONDER =>
        obtain ⟨pr1, h1, hcommon⟩ := forall₂_right hown pr (hperm.symm.subset hpr)
        exact ⟨pr1, (hfirst pr1 h1 pr hpr hcommon.1.1).1, hspi pr1 h1 pr hpr hcommon.1.1, hcommon⟩
      | INITIATOR =>
        obtain ⟨pr2, h2, hcommon⟩ := forall₂_left hown pr hpr
        have h2' := hperm.subset h2
        exact ⟨pr2, (hfirst pr hpr pr2 h2' hcommon.1.1).2, hspi pr hpr pr2 h2' hcommon.1.1, hcommon⟩

/-- A list found element by element, of the same length and with distinct keys,
    is a rearrangement. -/
theorem perm_of_found {l l' searched : List Saproto}
    (h : List.Forall₂ (fun pr x => firstLike pr searched = some x) l l')
    (hl : (l.map Saproto.protoId).Nodup) (hlen : l.length = searched.length) :
    l'.Perm searched := by
  have hids : l.map Saproto.protoId = l'.map Saproto.protoId :=
    map_eq_of_forall₂ (fun pr x (hab : firstLike pr searched = some x) =>
      (firstLike_protoId hab).2.symm) h
  have hnodup : l'.Nodup := List.Nodup.of_map Saproto.protoId (hids ▸ hl)
  refine (List.subperm_of_subset hnodup fun x hx => ?_).perm_of_length_le
    (Nat.le_of_eq (hlen.symm.trans h.length_eq))
  obtain ⟨pr, -, hfind⟩ := forall₂_right h x hx
  exact (firstLike_protoId hfind).1

theorem FirstMatches.commonChoice (h : FirstMatches ph1 side pp1 pp2)
    (hlevel : ph1.pcheckLevel ≠ .OBEY)
    (hdistinct : ((drivingOf side pp1 pp2).map Saproto.protoId).Nodup) :
    CommonChoice ph1 pp1 pp2 := by
  obtain ⟨found, hfound⟩ := exists_forall₂ (r := fun pr x =>
    firstLike pr (searchedOf side pp1 pp2) = some x ∧
      Common ph1 (peerOf side pr x) (ownOf side pr x)) (drivingOf side pp1 pp2)
    fun pr hpr => by
      obtain ⟨x, hx, -, hcommon⟩ := h.protos pr hpr
      exact ⟨x, hx, hcommon⟩
  have hperm := perm_of_found (hfound.imp fun _ _ h => h.1) hdistinct (lengths_eq h.lengths)
  refine ⟨h.level.1, h.level.2.1 hlevel, ?_⟩
  cases side with
  | RESPONDER =>
    have hflip : List.Forall₂ (Common ph1) found pp2.head :=
      (hfound.imp fun _ _ h => h.2 : List.Forall₂ (fun pr x => Common ph1 x pr) pp2.head found).flip
    obtain ⟨own, hown, hperm'⟩ := List.perm_comp_forall₂ hperm.symm hflip
    exact ⟨own, hperm', hown⟩
  | INITIATOR => exact ⟨found, hperm, hfound.imp fun _ _ h => h.2⟩

end

/-- The level is obeyed if and only if: where there is a common choice, the two
    proposals are regular, and where there is none, some first match is missing. -/
theorem cmpsaprop_obeys_iff (pp1 pp2 : Saprop) (hlevel : ph1.pcheckLevel ≠ .OBEY) :
    ObeysLevel ph1 side pp1 pp2 ↔
      (CommonChoice ph1 pp1 pp2 → Regular ph1 side pp1 pp2) ∧
        (¬CommonChoice ph1 pp1 pp2 → ¬FirstMatches ph1 side pp1 pp2) := by
  have haccept := cmpsapropAlloc_ne_none ph1 side pp1 pp2
  obtain ⟨hpeer, hown⟩ := cmpsapropAlloc_lists ph1 side pp1 pp2
  constructor
  · intro h
    have hobeys : FirstMatches ph1 side pp1 pp2 →
        (ph1.pcheckLevel = .CLAIM → pp1.lifebyte ≤ pp2.lifebyte) ∧
          ((drivingOf side pp1 pp2).map Saproto.protoId).Nodup := by
      intro hfirst
      obtain ⟨new, hnew⟩ := Option.ne_none_iff_exists'.mp (haccept.mpr hfirst)
      exact (obeys_iff hlevel hnew).mp (h.sound new hnew)
    constructor
    · intro hchoice
      have hfirst := haccept.mp (h.complete hchoice)
      obtain ⟨hlifebyte, hdistinct⟩ := hobeys hfirst
      obtain ⟨hpfs, hspi⟩ := (firstMatches_iff hchoice hdistinct).mp hfirst
      exact ⟨hdistinct, hlifebyte, hpfs, hspi⟩
    · intro hchoice hfirst
      exact hchoice (hfirst.commonChoice hlevel (hobeys hfirst).2)
  · rintro ⟨hregular, hnone⟩
    refine ⟨fun new hnew => ?_, fun hchoice => ?_, hpeer, hown⟩
    · have hfirst := haccept.mp (by simp [hnew])
      have hchoice : CommonChoice ph1 pp1 pp2 := by
        by_contra hno
        exact hnone hno hfirst
      have hreg := hregular hchoice
      exact (obeys_iff hlevel hnew).mpr ⟨hreg.lifebyte, hreg.distinct⟩
    · have hreg := hregular hchoice
      exact haccept.mpr ((firstMatches_iff hchoice hreg.distinct).mpr
        ⟨hreg.pfs, hreg.spisize⟩)

/-- Esp in tunnel mode, with the given byte lifetime. -/
def espTunnel (lifebyte : ℤ) : Saprop :=
  { propNo := 1
    lifetime := 28800
    lifebyte := lifebyte
    pfsGroup := 0
    claim := 0
    head :=
      [{ protoId := IPSECDOI_PROTO_IPSEC_ESP
         spisize := 4
         encmode := IPSECDOI_ATTR_ENC_MODE_TUNNEL
         udpEncap := false
         spi := [0, 0, 1, 1]
         spiP := [0, 0, 0, 0]
         reqidOut := 0
         reqidIn := 0
         head := [{ trnsNo := 1, trnsId := 12, encklen := 128, authtype := 2 }] }] }

def atLevel (level : PropCheck) : Ph1 :=
  { pcheckLevel := level
    natDetected := false
    natt := .rfc }

theorem strict_obeyed : ObeysLevel (atLevel .STRICT) .RESPONDER (espTunnel 1000) (espTunnel 1000) := by
  refine (cmpsaprop_obeys_iff (atLevel .STRICT) .RESPONDER (espTunnel 1000) (espTunnel 1000)
    (by decide)).mpr ⟨fun _ => ⟨by decide, fun _ => Int.le_refl _, fun _ _ => rfl, by decide⟩, ?_⟩
  intro hnone
  refine absurd ⟨fun _ => ⟨Int.le_refl _, Int.le_refl _⟩, fun _ => rfl, (espTunnel 1000).head, .refl _, ?_⟩ hnone
  exact List.forall₂_same.mpr fun pr hpr => by
    obtain rfl := List.mem_singleton.mp hpr
    exact ⟨⟨rfl, rfl⟩, _, List.mem_singleton_self _, _, List.mem_singleton_self _, rfl, rfl, Int.le_refl _⟩

/-- At claim the peer's longer byte lifetime comes out unclamped. -/
theorem claim_not_obeyed :
    ¬ObeysLevel (atLevel .CLAIM) .RESPONDER (espTunnel 2000) (espTunnel 1000) := by
  intro h
  obtain ⟨new, hnew⟩ : ∃ new, (cmpsapropAlloc (atLevel .CLAIM) (espTunnel 2000) (espTunnel 1000)
      .RESPONDER).new = some new ∧ new.lifebyte = 2000 := ⟨_, rfl, rfl⟩
  have hwithin : new.lifebyte ≤ 1000 := (h.sound new hnew.1).lifetimes.2
  omega

end WanStack.Racoon.Proposal
