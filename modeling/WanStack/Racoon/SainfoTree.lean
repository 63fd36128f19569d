import WanStack.Lib.Queue
import WanStack.Racoon.IdCompare
import Mathlib.Order.OrderDual

set_option autoImplicit false

/-!
# Selection of a `sainfo` section

`getsainfo`, `prisainfo` and `inssainfo` of `sainfo.c`. The sections are kept by
falling priority and searched from the front; a remote identity is also `NULL`
for any, or a marker for the address of the client.
-/
namespace WanStack.Racoon.SainfoTree
open Aftr (Buf)
open IdCompare (ipsecdoiChkcmpids)

/-- A remote identity: `SAINFO_ANONYMOUS`, `SAINFO_CLIENTADDR`, or an ID. -/
inductive Remote where
  | ANONYMOUS
  | CLIENTADDR
  | id (id : Buf)
deriving DecidableEq, Repr

structure Sainfo where
  idsrc : Option Buf
  iddst : Remote
  idI : Option Buf
  remoteid : ℕ
deriving DecidableEq, Repr

/-- The arguments of `getsainfo`. -/
structure Query where
  loc : Option Buf
  rmt : Remote
  peer : Option Buf
  client : Option Buf
  remoteid : ℕ

inductive Verdict where
  | next
  | matched
  | dereference
deriving DecidableEq, Repr

/-- `dereferenced`: the marker has been handed over as the pointer to an ID. -/
inductive Result where
  | NULL
  | sainfo (s : Sainfo)
  | dereferenced
deriving DecidableEq, Repr

/-! ### The list -/

def prisainfo (s : Sainfo) : ℕ :=
  (if s.remoteid ≠ 0 then 3 else 0) + (if s.idI ≠ none then 3 else 0) +
    (if s.idsrc ≠ none then 1 else 0) + if s.iddst ≠ .ANONYMOUS then 1 else 0

def inssainfo (new : Sainfo) : List Sainfo → List Sainfo
  | [] => [new]
  | s :: rest => if prisainfo new > prisainfo s then new :: s :: rest else s :: inssainfo new rest

/-- `sitree` after the sections `news` have been inserted. -/
def sitree (news : List Sainfo) : List Sainfo := news.foldl (fun l new => inssainfo new l) []

/-! ### The search -/

section
/- `outside` is what a comparison returns that reads outside an ID. -/
variable (eayCmpAsn1dn : Buf → Buf → ℤ) (outside : Option Buf → Option Buf → ℤ)

def chkcmpids (idt ids : Option Buf) : ℤ :=
  (ipsecdoiChkcmpids eayCmpAsn1dn idt ids false).getD (outside idt ids)

/-- `ipsecdoi_chkcmpids` for a remote identity; only two IDs are looked into. -/
def chkRemote (rmt : Remote) (ids : Option Buf) : Option ℤ :=
  match rmt with
  | .ANONYMOUS => some (chkcmpids eayCmpAsn1dn outside none ids)
  | .CLIENTADDR => if ids = none then some 0 else none
  | .id rmt => some (chkcmpids eayCmpAsn1dn outside (some rmt) ids)

/-- The end of a comparison of local and remote identities. -/
def evaluateIds (q : Query) (s : Sainfo) (ids : Option Buf) : Verdict :=
  if chkcmpids eayCmpAsn1dn outside q.loc s.idsrc ≠ 0 then .next
  else
    match chkRemote eayCmpAsn1dn outside q.rmt ids with
    | none => .dereference
    | some result => if result ≠ 0 then .next else .matched

/-- One round of the loop of `getsainfo`. -/
def evaluate (q : Query) (s : Sainfo) : Verdict :=
  if s.remoteid ≠ q.remoteid then .next
  else if s.idI ≠ none ∧ chkcmpids eayCmpAsn1dn outside q.peer s.idI ≠ 0 then .next
  else
    match s.iddst with
    | .CLIENTADDR =>
      if q.client = none then .next
      else if q.rmt = .CLIENTADDR then
        -- the section is compared with another one, by their local values
        if chkcmpids eayCmpAsn1dn outside q.loc s.idsrc ≠ 0 then .next else .matched
      else evaluateIds eayCmpAsn1dn outside q s q.client
    | .ANONYMOUS => evaluateIds eayCmpAsn1dn outside q s none
    | .id iddst => evaluateIds eayCmpAsn1dn outside q s (some iddst)

def getsainfo (q : Query) : List Sainfo → Result
  | [] => .NULL
  | s :: rest =>
    match evaluate eayCmpAsn1dn outside q s with
    | .next => getsainfo q rest
    | .matched => .sainfo s
    | .dereference => .dereferenced

/-! ### What a section asks for -/

/-- The constraint on the remote identity. The marker is not an ID. -/
def RemoteMatches (q : Query) : Remote → Prop
  | .ANONYMOUS => True
  | .CLIENTADDR => ∃ client, q.client = some client ∧
      ∀ rmt, q.rmt = .id rmt → chkcmpids eayCmpAsn1dn outside (some rmt) (some client) = 0
  | .id iddst => q.rmt ≠ .CLIENTADDR ∧
      ∀ rmt, q.rmt = .id rmt → chkcmpids eayCmpAsn1dn outside (some rmt) (some iddst) = 0

/-- The constraints but the one on the remote identity. -/
structure MatchesLocal (q : Query) (s : Sainfo) : Prop where
  remoteid : s.remoteid = q.remoteid
  from_id : ∀ idI, s.idI = some idI → chkcmpids eayCmpAsn1dn outside q.peer (some idI) = 0
  local_id : chkcmpids eayCmpAsn1dn outside q.loc s.idsrc = 0

def Matches (q : Query) (s : Sainfo) : Prop :=
  MatchesLocal eayCmpAsn1dn outside q s ∧ RemoteMatches eayCmpAsn1dn outside q s.iddst

/-- A section with an ID whose other constraints hold, when the marker is looked for. -/
def Dereferences (q : Query) (s : Sainfo) : Prop :=
  MatchesLocal eayCmpAsn1dn outside q s ∧ q.rmt = .CLIENTADDR ∧ ∃ iddst, s.iddst = .id iddst

variable {eayCmpAsn1dn outside} {q : Query} {s : Sainfo}

theorem chkcmpids_none_left (ids : Option Buf) : chkcmpids eayCmpAsn1dn outside none ids = 0 := rfl

theorem chkcmpids_none_right (idt : Option Buf) : chkcmpids eayCmpAsn1dn outside idt none = 0 := by
  cases idt <;> rfl

theorem evaluateIds_matched_iff (ids : Option Buf) :
    evaluateIds eayCmpAsn1dn outside q s ids = .matched ↔
      chkcmpids eayCmpAsn1dn outside q.loc s.idsrc = 0 ∧ (q.rmt = .CLIENTADDR → ids = none) ∧
        ∀ rmt, q.rmt = .id rmt → chkcmpids eayCmpAsn1dn outside (some rmt) ids = 0 := by
  unfold evaluateIds chkRemote
  by_cases hloc : chkcmpids eayCmpAsn1dn outside q.loc s.idsrc = 0
  · rw [if_neg (not_not.mpr hloc)]
    cases q.rmt with
    | ANONYMOUS => simp [hloc, chkcmpids_none_left]
    | CLIENTADDR =>
      by_cases hids : ids = none
      · simp [hloc, hids]
      · simp [hids]
    | id rmt =>
      by_cases hrmt : chkcmpids eayCmpAsn1dn outside (some rmt) ids = 0
      · simp [hloc, hrmt]
      · simp [hrmt]
  · simp [hloc]

theorem evaluateIds_dereference_iff (ids : Option Buf) :
    evaluateIds eayCmpAsn1dn outside q s ids = .dereference ↔
      chkcmpids eayCmpAsn1dn outside q.loc s.idsrc = 0 ∧ q.rmt = .CLIENTADDR ∧ ids ≠ none := by
  unfold evaluateIds chkRemote
  by_cases hloc : chkcmpids eayCmpAsn1dn outside q.loc s.idsrc = 0
  · rw [if_neg (not_not.mpr hloc)]
    cases q.rmt with
    | ANONYMOUS => simp [chkcmpids_none_left]
    | CLIENTADDR =>
      by_cases hids : ids = none
      · simp [hids]
      · simp [hloc, hids]
    | id rmt =>
      by_cases hrmt : chkcmpids eayCmpAsn1dn outside (some rmt) ids = 0
      · simp [hrmt]
      · simp [hrmt]
  · simp [hloc]

/-- A section whose number and initiator fit is judged by its identities. -/
theorem evaluate_of_fit (hid : s.remoteid = q.remoteid)
    (hfrom : ∀ idI, s.idI = some idI → chkcmpids eayCmpAsn1dn outside q.peer (some idI) = 0) :
    evaluate eayCmpAsn1dn outside q s =
      match s.iddst with
      | .CLIENTADDR =>
        if q.client = none then .next
        else if q.rmt = .CLIENTADDR then
          if chkcmpids eayCmpAsn1dn outside q.loc s.idsrc ≠ 0 then .next else .matched
        else evaluateIds eayCmpAsn1dn outside q s q.client
      | .ANONYMOUS => evaluateIds eayCmpAsn1dn outside q s none
      | .id iddst => evaluateIds eayCmpAsn1dn outside q s (some iddst) := by
  unfold evaluate
  rw [if_neg (not_not.mpr hid), if_neg]
  rintro ⟨hsome, hne⟩
  obtain ⟨idI, hidI⟩ := Option.ne_none_iff_exists'.mp hsome
  exact hne (hidI ▸ hfrom idI hidI)

theorem evaluate_of_misfit (h : ¬ (s.remoteid = q.remoteid ∧
    ∀ idI, s.idI = some idI → chkcmpids eayCmpAsn1dn outside q.peer (some idI) = 0)) :
    evaluate eayCmpAsn1dn outside q s = .next := by
  unfold evaluate
  by_cases hid : s.remoteid = q.remoteid
  · rw [if_neg (not_not.mpr hid), if_pos]
    by_contra hfits
    apply h
    refine ⟨hid, fun idI hidI => ?_⟩
    by_contra hne
    exact hfits ⟨by simp [hidI], hidI ▸ hne⟩
  · rw [if_pos hid]

theorem evaluate_matched_iff :
    evaluate eayCmpAsn1dn outside q s = .matched ↔ Matches eayCmpAsn1dn outside q s := by
  by_cases hfit : s.remoteid = q.remoteid ∧
      ∀ idI, s.idI = some idI → chkcmpids eayCmpAsn1dn outside q.peer (some idI) = 0
  · have hlocal : MatchesLocal eayCmpAsn1dn outside q s ↔
        chkcmpids eayCmpAsn1dn outside q.loc s.idsrc = 0 :=
      ⟨fun h => h.local_id, fun h => ⟨hfit.1, hfit.2, h⟩⟩
    rw [evaluate_of_fit hfit.1 hfit.2]
    unfold Matches
    rw [hlocal]
    cases s.iddst with
    | ANONYMOUS =>
      rw [evaluateIds_matched_iff]
      simp [RemoteMatches, chkcmpids_none_right]
    | id iddst =>
      rw [evaluateIds_matched_iff]
      simp [RemoteMatches]
    | CLIENTADDR =>
      dsimp only
      cases hclient : q.client with
      | none => simp [RemoteMatches, hclient]
      | some client =>
        rw [if_neg (Option.some_ne_none client)]
        by_cases hrmt : q.rmt = .CLIENTADDR
        · simp [RemoteMatches, hclient, hrmt]
        · rw [if_neg hrmt, evaluateIds_matched_iff]
          simp [RemoteMatches, hclient, hrmt]
  · rw [evaluate_of_misfit hfit]
    constructor
    · intro h
      cases h
    · intro h
      exact absurd ⟨h.1.remoteid, h.1.from_id⟩ hfit

theorem evaluate_dereference_iff :
    evaluate eayCmpAsn1dn outside q s = .dereference ↔ Dereferences eayCmpAsn1dn outside q s := by
  by_cases hfit : s.remoteid = q.remoteid ∧
      ∀ idI, s.idI = some idI → chkcmpids eayCmpAsn1dn outside q.peer (some idI) = 0
  · have hlocal : MatchesLocal eayCmpAsn1dn outside q s ↔
        chkcmpids eayCmpAsn1dn outside q.loc s.idsrc = 0 :=
      ⟨fun h => h.local_id, fun h => ⟨hfit.1, hfit.2, h⟩⟩
    rw [evaluate_of_fit hfit.1 hfit.2]
    unfold Dereferences
    rw [hlocal]
    cases s.iddst with
    | ANONYMOUS =>
      rw [evaluateIds_dereference_iff]
      simp
    | id iddst =>
      rw [evaluateIds_dereference_iff]
      simp
    | CLIENTADDR =>
      dsimp only
      by_cases hclient : q.client = none
      · simp [hclient]
      · rw [if_neg hclient]
        by_cases hrmt : q.rmt = .CLIENTADDR
        · rw [if_pos hrmt]
          split_ifs <;> simp
        · rw [if_neg hrmt, evaluateIds_dereference_iff]
          simp [hrmt]
  · rw [evaluate_of_misfit hfit]
    constructor
    · intro h
      cases h
    · intro h
      exact absurd ⟨h.1.remoteid, h.1.from_id⟩ hfit

/-! ### The first section that ends the search -/

/-- A section at which the loop is left. -/
def stops (eayCmpAsn1dn : Buf → Buf → ℤ)
    (outside : Option Buf → Option Buf → ℤ) (q : Query) (s : Sainfo) : Bool := evaluate eayCmpAsn1dn outside q s ≠ .next

theorem getsainfo_eq (l : List Sainfo) :
    getsainfo eayCmpAsn1dn outside q l =
      match l.find? (stops eayCmpAsn1dn outside q) with
      | none => .NULL
      | some s => if evaluate eayCmpAsn1dn outside q s = .matched then .sainfo s else .dereferenced := by
  induction l with
  | nil => rfl
  | cons s l ih =>
    rw [getsainfo, List.find?_cons]
    cases hs : evaluate eayCmpAsn1dn outside q s with
    | next =>
      simp only [stops, hs, ne_eq, not_true_eq_false, decide_false]
      exact ih
    | matched => simp [stops, hs]
    | dereference => simp [stops, hs]

end

/-! ### The order of the sections -/

/-- A section beside the number of its insertion: the priority falls along the list. -/
def priority (entry : Sainfo × ℕ) : ℕᵒᵈ := OrderDual.toDual (prisainfo entry.1)

def numbered (news : List Sainfo) : List (Sainfo × ℕ) :=
  news.zipIdx.foldl (fun l new => Lib.Queue.enqueue priority new l) []

theorem inssainfo_eq (new : Sainfo × ℕ) (l : List (Sainfo × ℕ)) :
    inssainfo new.1 (l.map Prod.fst) = (Lib.Queue.enqueue priority new l).map Prod.fst := by
  induction l with
  | nil => rfl
  | cons s l ih =>
    unfold Lib.Queue.enqueue at ih ⊢
    rw [List.map_cons, inssainfo, List.orderedInsert_cons]
    by_cases hlt : prisainfo new.1 > prisainfo s.1
    · have hkey : priority new < priority s := hlt
      rw [if_pos hlt, if_pos hkey]
      rfl
    · have hkey : ¬ priority new < priority s := hlt
      rw [if_neg hlt, if_neg hkey, List.map_cons, ih]

theorem numbered_append (news : List Sainfo) (new : Sainfo) :
    numbered (news ++ [new]) = Lib.Queue.enqueue priority (new, news.length) (numbered news) := by
  unfold numbered
  rw [List.zipIdx_append, List.foldl_append]
  simp

theorem sitree_eq (news : List Sainfo) : sitree news = (numbered news).map Prod.fst := by
  induction news using List.reverseRecOn with
  | nil => rfl
  | append_singleton news new ih =>
    rw [numbered_append, ← inssainfo_eq, ← ih]
    unfold sitree
    rw [List.foldl_append]
    rfl

theorem mem_numbered (news : List Sainfo) (entry : Sainfo × ℕ) :
    entry ∈ numbered news ↔ news[entry.2]? = some entry.1 := by
  induction news using List.reverseRecOn with
  | nil => simp [numbered]
  | append_singleton news new ih =>
    obtain ⟨s, i⟩ := entry
    rw [numbered_append, Lib.Queue.mem_enqueue, ih, List.getElem?_append]
    dsimp only
    split_ifs with hi
    · simp only [Prod.mk.injEq, or_iff_right_iff_imp]
      rintro ⟨-, rfl⟩
      exact absurd hi (lt_irrefl _)
    · have hnone : news[i]? = none := List.getElem?_eq_none (not_lt.mp hi)
      rw [hnone]
      rcases Nat.lt_or_eq_of_le (not_lt.mp hi) with hgt | rfl
      · have hout : [new][i - news.length]? = none := List.getElem?_eq_none (by simp; omega)
        rw [hout]
        simp
        omega
      · simp [eq_comm]

theorem numbered_pairwise (news : List Sainfo) :
    (numbered news).Pairwise (Lib.Queue.Before priority Prod.snd) := by
  induction news using List.reverseRecOn with
  | nil => exact List.Pairwise.nil
  | append_singleton news new ih =>
    rw [numbered_append]
    apply Lib.Queue.pairwise_enqueue ih
    intro entry hentry
    have hsome := (mem_numbered news entry).mp hentry
    exact (List.getElem?_eq_some_iff.mp hsome).1

section
variable (eayCmpAsn1dn : Buf → Buf → ℤ) (outside : Option Buf → Option Buf → ℤ)
  (news : List Sainfo) (q : Query)

/-- No matching section has a higher priority than `s`, and none of its priority has been
    inserted before number `i`. -/
def Best (i : ℕ) (s : Sainfo) : Prop :=
  ∀ (j : ℕ) (t : Sainfo), news[j]? = some t → Matches eayCmpAsn1dn outside q t →
    prisainfo t < prisainfo s ∨ prisainfo t = prisainfo s ∧ i ≤ j

/-- A right answer for the sections `news`. -/
def Selects : Result → Prop
  | .NULL => ∀ s ∈ news, ¬ Matches eayCmpAsn1dn outside q s
  | .sainfo s => Matches eayCmpAsn1dn outside q s ∧
      ∃ i : ℕ, news[i]? = some s ∧ Best eayCmpAsn1dn outside news q i s
  | .dereferenced => False

variable {eayCmpAsn1dn outside news q} {s t : Sainfo} {i : ℕ}

theorem stops_iff : stops eayCmpAsn1dn outside q s = true ↔
    Matches eayCmpAsn1dn outside q s ∨ Dereferences eayCmpAsn1dn outside q s := by
  rw [← evaluate_matched_iff, ← evaluate_dereference_iff]
  unfold stops
  cases evaluate eayCmpAsn1dn outside q s <;> simp

theorem Matches.not_dereferences (h : Matches eayCmpAsn1dn outside q s) :
    ¬ Dereferences eayCmpAsn1dn outside q s := by
  rw [← evaluate_matched_iff] at h
  rw [← evaluate_dereference_iff, h]
  intro hne
  cases hne

/-- What the search does with the sections `news`: it ends at the first section that
    matches or is looked into with the marker. -/
theorem getsainfo_cases (eayCmpAsn1dn : Buf → Buf → ℤ)
    (outside : Option Buf → Option Buf → ℤ) (news : List Sainfo) (q : Query) :
    (getsainfo eayCmpAsn1dn outside q (sitree news) = .NULL ∧
      ∀ s ∈ news, ¬ Matches eayCmpAsn1dn outside q s ∧ ¬ Dereferences eayCmpAsn1dn outside q s) ∨
    ∃ (i : ℕ) (s : Sainfo), news[i]? = some s ∧
      (∀ (j : ℕ) (t : Sainfo), news[j]? = some t →
        Matches eayCmpAsn1dn outside q t ∨ Dereferences eayCmpAsn1dn outside q t →
          prisainfo t < prisainfo s ∨ prisainfo t = prisainfo s ∧ i ≤ j) ∧
      (Matches eayCmpAsn1dn outside q s ∧
          getsainfo eayCmpAsn1dn outside q (sitree news) = .sainfo s ∨
        Dereferences eayCmpAsn1dn outside q s ∧
          getsainfo eayCmpAsn1dn outside q (sitree news) = .dereferenced) := by
  rw [getsainfo_eq, sitree_eq, List.find?_map]
  cases hfind : (numbered news).find? (stops eayCmpAsn1dn outside q ∘ Prod.fst) with
  | none =>
    left
    refine ⟨rfl, fun s hs => ?_⟩
    obtain ⟨i, hi⟩ := List.mem_iff_getElem?.mp hs
    have hnot := List.find?_eq_none.mp hfind (s, i) ((mem_numbered news (s, i)).mpr hi)
    rw [Function.comp_apply, stops_iff] at hnot
    exact not_or.mp hnot
  | some entry =>
    right
    obtain ⟨s, i⟩ := entry
    obtain ⟨hmem, hstops, hfirst⟩ :=
      (Lib.Queue.find?_eq_some_iff (numbered_pairwise news) _).mp hfind
    refine ⟨i, s, (mem_numbered news (s, i)).mp hmem, fun j t hj ht => ?_, ?_⟩
    · have hbefore := hfirst (t, j) ((mem_numbered news (t, j)).mpr hj) (stops_iff.mpr ht)
      rcases hbefore with heq | hlt | ⟨heq, hlt⟩
      · cases heq
        exact Or.inr ⟨rfl, le_refl _⟩
      · exact Or.inl hlt
      · exact Or.inr ⟨heq.symm, hlt.le⟩
    · cases stops_iff.mp hstops with
      | inl hmatch =>
        left
        refine ⟨hmatch, ?_⟩
        simp [evaluate_matched_iff.mpr hmatch]
      | inr hderef =>
        right
        refine ⟨hderef, ?_⟩
        simp [evaluate_dereference_iff.mpr hderef]

/-- The search is right except where it comes to a section with an ID while it looks for the
    marker, before any section that matches. -/
theorem getsainfo_selects_iff (eayCmpAsn1dn : Buf → Buf → ℤ)
    (outside : Option Buf → Option Buf → ℤ) (news : List Sainfo) (q : Query) :
    Selects eayCmpAsn1dn outside news q (getsainfo eayCmpAsn1dn outside q (sitree news)) ↔
      ¬ ∃ (i : ℕ) (s : Sainfo), news[i]? = some s ∧ Dereferences eayCmpAsn1dn outside q s ∧
        Best eayCmpAsn1dn outside news q i s := by
  rcases getsainfo_cases eayCmpAsn1dn outside news q
    with ⟨hnull, hnone⟩ | ⟨i, s, hi, hfirst, ⟨hmatch, hresult⟩ | ⟨hderef, hresult⟩⟩
  · rw [hnull]
    constructor
    · rintro - ⟨i, s, hi, hderef, -⟩
      exact (hnone s (List.mem_of_getElem? hi)).2 hderef
    · intro _ s hs
      exact (hnone s hs).1
  · rw [hresult]
    constructor
    · rintro - ⟨j, t, hj, hderef, hbest⟩
      have hahead := hfirst j t hj (Or.inr hderef)
      have hbehind := hbest i s hi hmatch
      have hij : i = j := by omega
      subst hij
      rw [hi] at hj
      cases hj
      exact hmatch.not_dereferences hderef
    · intro _
      exact ⟨hmatch, i, hi, fun j t hj ht => hfirst j t hj (Or.inl ht)⟩
  · rw [hresult]
    constructor
    · exact False.elim
    · intro hnot
      exact hnot ⟨i, s, hi, hderef, fun j t hj ht => hfirst j t hj (Or.inl ht)⟩

end

/-- A section for every local address and the host 10.0.0.1. -/
def hostSection : Sainfo :=
  { idsrc := none
    iddst := .id [1, 0, 0, 0, 10, 0, 0, 1]
    idI := none
    remoteid := 0 }

/-- A section for the client's address is looked for beside `hostSection`. -/
theorem getsainfo_marker :
    let q : Query :=
      { loc := none
        rmt := .CLIENTADDR
        peer := none
        client := none
        remoteid := 0 }
    getsainfo IdCompare.sameBytes (fun _ _ => 0) q (sitree [hostSection]) = .dereferenced ∧
      ¬ Selects IdCompare.sameBytes (fun _ _ => 0) [hostSection] q
        (getsainfo IdCompare.sameBytes (fun _ _ => 0) q (sitree [hostSection])) :=
  ⟨rfl, id⟩

end WanStack.Racoon.SainfoTree
