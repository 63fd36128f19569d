import WanStack.Racoon.InfoAuth

set_option autoImplicit false

/-!
# What a Deletion payload removes

A round of the loops over the associations leaves the state alone, or takes the
association of the round and phase 2 handles that carry its SPI. The loops then
take no more than the associations their rounds look for.
-/
namespace WanStack.Racoon.Handles
open Aftr (Buf byteAt shortAt)
open Proposal (longAt memcpy IPSEC_DOI IPSECDOI_PROTO_ISAKMP IPSECDOI_PROTO_IPSEC_AH
  IPSECDOI_PROTO_IPSEC_ESP IPSECDOI_PROTO_IPCOMP)

variable {env : Env} {iph1 del : Ph1handle} {enc : Bool} {s s' s'' : State} {sa : SadbSa}
  {spis : List Buf} {dst0 : Sockaddr} {protoId : ℤ} {satype : Satype}

/-! ### One association -/

/-- Whether a handle carries the SPI of an association. -/
def CarriesSa (sa : SadbSa) (p : Ph2handle) : Prop :=
  carries (pfkey2ipsecdoiProto sa.satype) sa.spi p

/-- The state after an association and handles that carry its SPI are taken. -/
structure Loses (sa : SadbSa) (s s' : State) : Prop where
  ph1tree : s'.ph1tree = s.ph1tree
  ph2tree : s'.ph2tree.Sublist s.ph2tree
  sadb : s'.sadb.entries = s.sadb.entries.filter fun e => e.key ≠ sa.key
  carried : ∀ p ∈ s.ph2tree, p ∉ s'.ph2tree → CarriesSa sa p

theorem Loses.not_mem (h : Loses sa s s') : sa ∉ s'.sadb.entries := by
  rw [h.sadb, List.mem_filter]
  simp

theorem Loses.trans (h : Loses sa s s') (h' : Loses sa s' s'') : Loses sa s s'' where
  ph1tree := h'.ph1tree.trans h.ph1tree
  ph2tree := h'.ph2tree.trans h.ph2tree
  sadb := by
    rw [h'.sadb, h.sadb, List.filter_filter]
    simp only [Bool.and_self]
  carried := by
    intro p hp hgone
    by_cases hmid : p ∈ s'.ph2tree
    · exact h'.carried p hmid hgone
    · exact h.carried p hp hmid

theorem remph2_gone (iph2 : Ph2handle) : iph2 ∉ (remph2 iph2 s).ph2tree := by
  intro h
  exact absurd rfl (of_decide_eq_true (List.mem_filter.mp h).2)

/-- A handle that is gone with another is that other. -/
theorem eq_of_remph2_gone {p iph2 : Ph2handle} (hp : p ∈ s.ph2tree) (h2 : iph2 ∈ s.ph2tree)
    (hgone : p ∉ (remph2 iph2 s).ph2tree) : p = iph2 := by
  by_cases haddr : p.addr = iph2.addr
  · exact List.inj_on_of_nodup_map s.ph2Distinct hp h2 haddr
  · exact absurd (List.mem_filter.mpr ⟨hp, decide_eq_true haddr⟩) hgone

theorem deleteSa_loses {iph2 : Option Ph2handle}
    (h : ∀ p ∈ iph2, p ∈ s.ph2tree ∧ CarriesSa sa p) : Loses sa s (deleteSa sa iph2 s) := by
  cases iph2 with
  | none =>
    exact {
      ph1tree := rfl
      ph2tree := List.Sublist.refl _
      sadb := rfl
      carried := fun p hp hgone => absurd hp hgone }
  | some iph2 =>
    obtain ⟨hmem, hcarries⟩ := h iph2 rfl
    exact {
      ph1tree := rfl
      ph2tree := List.filter_sublist
      sadb := rfl
      carried := by
        intro p hp hgone
        rw [eq_of_remph2_gone hp hmem hgone]
        exact hcarries }

theorem getph2bysaidx_mem {spi : Buf} {p : Ph2handle} (h : getph2bysaidx s protoId spi = some p) :
    p ∈ s.ph2tree ∧ carries protoId spi p :=
  ⟨List.mem_of_find?_eq_some h, List.find?_some h⟩

/-- The one handle that carries an SPI goes with the association. -/
theorem deleteSa_gone {spi : Buf} {p : Ph2handle} (hp : carries protoId spi p)
    (hsole : ∀ q ∈ s.ph2tree, carries protoId spi q → q = p) :
    p ∉ (deleteSa sa (getph2bysaidx s protoId spi) s).ph2tree := by
  cases hfind : getph2bysaidx s protoId spi with
  | none =>
    intro hmem
    have hnot := List.find?_eq_none.mp hfind p hmem
    exact hnot hp
  | some q =>
    obtain ⟨hmem, hcarries⟩ := getph2bysaidx_mem hfind
    obtain rfl := hsole q hmem hcarries
    exact remph2_gone q

/-! ### The rounds -/

/-- A round that takes its association only where it should. -/
def Round (Q : SadbSa → Prop) (round : State → SadbSa → State) : Prop :=
  ∀ s sa, round s sa = s ∨ Q sa ∧ Loses sa s (round s sa)

theorem purgeRemoteSa_round (iph1 : Ph1handle) (newIph1 : Option Ph1handle) :
    Round (fun sa => connects iph1 sa) (purgeRemoteSa iph1 newIph1) := by
  intro s sa
  unfold purgeRemoteSa
  dsimp only
  split_ifs with hdead hconnects hkeep
  · exact .inl rfl
  · exact .inl rfl
  · exact .inl rfl
  · right
    constructor
    · simpa using hconnects
    · exact deleteSa_loses fun p hp => getph2bysaidx_mem hp

theorem pfkey2ipsecdoiProto_of (h : ipsecdoi2pfkeyProto protoId = some satype) :
    pfkey2ipsecdoiProto satype = protoId := by
  unfold ipsecdoi2pfkeyProto at h
  split_ifs at h with hah hesp hipcomp
  · obtain rfl := Option.some.inj h
    exact hah.symm
  · obtain rfl := Option.some.inj h
    exact hesp.symm
  · obtain rfl := Option.some.inj h
    exact hipcomp.symm

/-- The loop of a round of `purge_ipsec_spi` over the SPIs. -/
def purgeListed (protoId : ℤ) (sa : SadbSa) (s : State) (spi : Buf) : State :=
  if spi ≠ sa.spi then s else deleteSa sa (getph2bysaidx s protoId spi) s

theorem purgeListed_round (hproto : pfkey2ipsecdoiProto sa.satype = protoId) (spi : Buf) :
    purgeListed protoId sa s spi = s ∨ Loses sa s (purgeListed protoId sa s spi) := by
  unfold purgeListed
  split_ifs with hspi
  · exact .inl rfl
  · right
    apply deleteSa_loses
    intro p hp
    rw [CarriesSa, hproto, ← not_not.mp hspi]
    exact getph2bysaidx_mem hp

/-- A property that one element brings about and every other one keeps holds after a loop. -/
theorem foldl_reaches {σ α : Type} {f : σ → α → σ} {I D : σ → Prop} {a : α}
    (hI : ∀ s b, I s → I (f s b)) (hD : ∀ s b, D s → D (f s b)) (ha : ∀ s, I s → D (f s a))
    {l : List α} (hmem : a ∈ l) {s : σ} (hs : I s) : D (l.foldl f s) := by
  have hkeep : ∀ (l : List α) (s : σ), D s → D (l.foldl f s) := by
    intro l
    induction l with
    | nil => exact fun s h => h
    | cons b l ih => exact fun s h => ih _ (hD s b h)
  induction l generalizing s with
  | nil => cases hmem
  | cons b l ih =>
    rcases List.mem_cons.mp hmem with rfl | hmem
    · exact hkeep l _ (ha s hs)
    · exact ih hmem (hI s b hs)

theorem purgeListed_foldl (hproto : pfkey2ipsecdoiProto sa.satype = protoId) :
    spis.foldl (purgeListed protoId sa) s = s ∨
      Loses sa s (spis.foldl (purgeListed protoId sa) s) := by
  induction spis generalizing s with
  | nil => exact .inl rfl
  | cons spi spis ih =>
    rw [List.foldl_cons]
    rcases purgeListed_round hproto spi with h | h
    · rw [h]
      exact ih
    · rcases @ih (purgeListed protoId sa s spi) with h' | h'
      · rw [h']
        exact .inr h
      · exact .inr (h.trans h')

/-- What `purge_ipsec_spi` takes: associations it looks for with an SPI of the list. -/
def Listed (dst0 : Sockaddr) (satype : Satype) (spis : List Buf) (sa : SadbSa) : Prop :=
  purgeable dst0 satype sa ∧ sa.spi ∈ spis

theorem purgeSpiSa_eq (sa : SadbSa) (s : State) : purgeSpiSa dst0 protoId satype spis s sa =
    if purgeable dst0 satype sa then spis.foldl (purgeListed protoId sa) s else s := by
  unfold purgeSpiSa
  cases purgeable dst0 satype sa <;> rfl

theorem purgeListed_foldl_unlisted (h : sa.spi ∉ spis) :
    spis.foldl (purgeListed protoId sa) s = s := by
  induction spis with
  | nil => rfl
  | cons spi spis ih =>
    have hspi : spi ≠ sa.spi := fun heq => h (List.mem_cons.mpr (.inl heq.symm))
    rw [List.foldl_cons, purgeListed, if_pos hspi]
    exact ih fun hmem => h (List.mem_cons_of_mem _ hmem)

theorem purgeSpiSa_round (hproto : ipsecdoi2pfkeyProto protoId = some satype) :
    Round (Listed dst0 satype spis) (purgeSpiSa dst0 protoId satype spis) := by
  intro s sa
  rw [purgeSpiSa_eq]
  split_ifs with hpurge
  · by_cases hmem : sa.spi ∈ spis
    · have hsatype : sa.satype = satype := by
        simp only [purgeable, Bool.and_eq_true, decide_eq_true_eq] at hpurge
        exact hpurge.1.1
      have hround : pfkey2ipsecdoiProto sa.satype = protoId := by
        rw [hsatype]
        exact pfkey2ipsecdoiProto_of hproto
      exact (purgeListed_foldl hround).imp_right fun h => ⟨⟨hpurge, hmem⟩, h⟩
    · exact .inl (purgeListed_foldl_unlisted hmem)
  · exact .inl rfl

theorem deleteSa_not_mem (iph2 : Option Ph2handle) :
    sa ∉ (deleteSa sa iph2 s).sadb.entries := by
  have h : (deleteSa sa iph2 s).sadb.entries = s.sadb.entries.filter fun e => e.key ≠ sa.key := by
    cases iph2 <;> rfl
  rw [h, List.mem_filter]
  simp

/-! ### The loops -/

/-- What a loop leaves: associations taken only where its rounds should, and
    handles gone only with an association whose SPI they carry. -/
structure Shrinks (Q : SadbSa → Prop) (s s' : State) : Prop where
  ph1tree : s'.ph1tree = s.ph1tree
  ph2tree : s'.ph2tree.Sublist s.ph2tree
  sadb : s'.sadb.entries.Sublist s.sadb.entries
  selected : ∀ sa ∈ s.sadb.entries, sa ∉ s'.sadb.entries → Q sa
  carried : ∀ p ∈ s.ph2tree, p ∉ s'.ph2tree →
    ∃ sa ∈ s.sadb.entries, sa ∉ s'.sadb.entries ∧ CarriesSa sa p

theorem Shrinks.refl (Q : SadbSa → Prop) (s : State) : Shrinks Q s s where
  ph1tree := rfl
  ph2tree := List.Sublist.refl _
  sadb := List.Sublist.refl _
  selected := fun _ hsa hgone => absurd hsa hgone
  carried := fun _ hp hgone => absurd hp hgone

theorem Shrinks.trans {Q : SadbSa → Prop} (h : Shrinks Q s s') (h' : Shrinks Q s' s'') :
    Shrinks Q s s'' where
  ph1tree := h'.ph1tree.trans h.ph1tree
  ph2tree := h'.ph2tree.trans h.ph2tree
  sadb := h'.sadb.trans h.sadb
  selected := by
    intro sa hsa hgone
    by_cases hmid : sa ∈ s'.sadb.entries
    · exact h'.selected sa hmid hgone
    · exact h.selected sa hsa hmid
  carried := by
    intro p hp hgone
    by_cases hmid : p ∈ s'.ph2tree
    · obtain ⟨sa, hsa, hsagone, hcarries⟩ := h'.carried p hmid hgone
      exact ⟨sa, h.sadb.subset hsa, hsagone, hcarries⟩
    · obtain ⟨sa, hsa, hsagone, hcarries⟩ := h.carried p hp hmid
      exact ⟨sa, hsa, fun hmem => hsagone (h'.sadb.subset hmem), hcarries⟩

theorem Loses.shrinks {Q : SadbSa → Prop} (h : Loses sa s s') (hsa : sa ∈ s.sadb.entries)
    (hQ : Q sa) : Shrinks Q s s' where
  ph1tree := h.ph1tree
  ph2tree := h.ph2tree
  sadb := by
    rw [h.sadb]
    exact List.filter_sublist
  selected := by
    intro e he hgone
    rw [h.sadb, List.mem_filter] at hgone
    have hkey : e.key = sa.key := by
      by_contra hne
      exact hgone ⟨he, decide_eq_true hne⟩
    rw [List.inj_on_of_nodup_map s.sadb.distinct he hsa hkey]
    exact hQ
  carried := fun p hp hgone => ⟨sa, hsa, h.not_mem, h.carried p hp hgone⟩

/-- The induction is on the associations still to come, all of them still there. -/
theorem foldl_shrinks {Q : SadbSa → Prop} {round : State → SadbSa → State} (h : Round Q round)
    {l : List SadbSa} (hl : (l.map SadbSa.key).Nodup) (hs : ∀ sa ∈ l, sa ∈ s.sadb.entries) :
    Shrinks Q s (l.foldl round s) := by
  induction l generalizing s with
  | nil => exact Shrinks.refl Q s
  | cons sa l ih =>
    rw [List.map_cons, List.nodup_cons] at hl
    rw [List.foldl_cons]
    rcases h s sa with heq | ⟨hQ, hloses⟩
    · rw [heq]
      exact ih hl.2 fun e he => hs e (List.mem_cons_of_mem _ he)
    · apply (hloses.shrinks (hs sa List.mem_cons_self) hQ).trans
      apply ih hl.2
      intro e he
      rw [hloses.sadb, List.mem_filter]
      refine ⟨hs e (List.mem_cons_of_mem _ he), decide_eq_true fun hkey => ?_⟩
      exact hl.1 (hkey ▸ List.mem_map_of_mem he)

/-- What `purge_ipsec_spi` does with a list of SPIs: the associations it looks for
    go, and no other; a handle goes that alone carries the SPI of one of them. -/
structure Purges (Q : SadbSa → Prop) (s s' : State) : Prop extends Shrinks Q s s' where
  gone : ∀ sa ∈ s.sadb.entries, Q sa → sa ∉ s'.sadb.entries
  handle : ∀ sa ∈ s.sadb.entries, Q sa → ∀ p, CarriesSa sa p →
    (∀ q ∈ s.ph2tree, CarriesSa sa q → q = p) → p ∉ s'.ph2tree

theorem Purges.of_none {Q : SadbSa → Prop} (h : ∀ sa ∈ s.sadb.entries, ¬Q sa) : Purges Q s s where
  toShrinks := Shrinks.refl Q s
  gone := fun sa hsa hQ => absurd hQ (h sa hsa)
  handle := fun sa hsa hQ => absurd hQ (h sa hsa)

theorem Round.sublist {Q : SadbSa → Prop} {round : State → SadbSa → State} (h : Round Q round)
    (s : State) (sa : SadbSa) : (round s sa).sadb.entries.Sublist s.sadb.entries ∧
      (round s sa).ph2tree.Sublist s.ph2tree := by
  rcases h s sa with heq | ⟨-, hloses⟩
  · rw [heq]
    exact ⟨List.Sublist.refl _, List.Sublist.refl _⟩
  · rw [hloses.sadb]
    exact ⟨List.filter_sublist, hloses.ph2tree⟩

/-- The round for a listed association takes it, and its handle. -/
theorem purgeSpiSa_takes (hproto : ipsecdoi2pfkeyProto protoId = some satype)
    (hlisted : Listed dst0 satype spis sa) (s : State) :
    sa ∉ (purgeSpiSa dst0 protoId satype spis s sa).sadb.entries ∧
      ∀ p, CarriesSa sa p → (∀ q ∈ s.ph2tree, CarriesSa sa q → q = p) →
        p ∉ (purgeSpiSa dst0 protoId satype spis s sa).ph2tree := by
  have hsatype : pfkey2ipsecdoiProto sa.satype = protoId := by
    have hpurge := hlisted.1
    simp only [purgeable, Bool.and_eq_true, decide_eq_true_eq] at hpurge
    rw [hpurge.1.1]
    exact pfkey2ipsecdoiProto_of hproto
  have hsub : ∀ (s : State) (spi : Buf),
      (purgeListed protoId sa s spi).sadb.entries.Sublist s.sadb.entries ∧
        (purgeListed protoId sa s spi).ph2tree.Sublist s.ph2tree := by
    intro s spi
    rcases purgeListed_round hsatype spi with heq | hloses
    · rw [heq]
      exact ⟨List.Sublist.refl _, List.Sublist.refl _⟩
    · rw [hloses.sadb]
      exact ⟨List.filter_sublist, hloses.ph2tree⟩
  have hat : ∀ s, purgeListed protoId sa s sa.spi =
      deleteSa sa (getph2bysaidx s protoId sa.spi) s := fun s => if_neg (not_not.mpr rfl)
  rw [purgeSpiSa_eq, if_pos hlisted.1]
  constructor
  · apply foldl_reaches (I := fun _ => True) (D := fun s => sa ∉ s.sadb.entries)
      (fun _ _ _ => trivial) (fun s spi h hmem => h ((hsub s spi).1.subset hmem)) _ hlisted.2 trivial
    intro s _
    rw [hat]
    exact deleteSa_not_mem _
  · intro p hp hsole
    apply foldl_reaches (I := fun s => ∀ q ∈ s.ph2tree, CarriesSa sa q → q = p)
      (D := fun s => p ∉ s.ph2tree) (fun s spi h q hq => h q ((hsub s spi).2.subset hq))
      (fun s spi h hmem => h ((hsub s spi).2.subset hmem)) _ hlisted.2 hsole
    intro s hsole
    rw [hat]
    rw [CarriesSa, hsatype] at hp
    apply deleteSa_gone hp
    intro q hq hcarries
    apply hsole q hq
    rw [CarriesSa, hsatype]
    exact hcarries

theorem purgeIpsecSpi_purges (hproto : ipsecdoi2pfkeyProto protoId = some satype) :
    Purges (Listed dst0 satype spis) s (purgeIpsecSpi true dst0 protoId spis s) := by
  have hrun : purgeIpsecSpi true dst0 protoId spis s =
      s.sadb.entries.foldl (purgeSpiSa dst0 protoId satype spis) s := by
    rw [purgeIpsecSpi, hproto]
    rfl
  have hround := @purgeSpiSa_round spis dst0 protoId satype hproto
  rw [hrun]
  constructor
  · exact foldl_shrinks hround s.sadb.distinct fun _ h => h
  · intro sa hsa hlisted
    apply foldl_reaches (I := fun _ => True) (D := fun s => sa ∉ s.sadb.entries)
      (fun _ _ _ => trivial) (fun s b h hmem => h ((hround.sublist s b).1.subset hmem)) _ hsa trivial
    exact fun s _ => (purgeSpiSa_takes hproto hlisted s).1
  · intro sa hsa hlisted p hp hsole
    apply foldl_reaches (I := fun s => ∀ q ∈ s.ph2tree, CarriesSa sa q → q = p)
      (D := fun s => p ∉ s.ph2tree) (fun s b h q hq => h q ((hround.sublist s b).2.subset hq))
      (fun s b h hmem => h ((hround.sublist s b).2.subset hmem)) _ hsa hsole
    exact fun s hsole => (purgeSpiSa_takes hproto hlisted s).2 p hp hsole

/-! ### The handle that a Deletion payload for ISAKMP names -/

/-- What is left of a state a phase 1 handle is deleted from. -/
structure TakesPh1 (del : Ph1handle) (s s' : State) : Prop where
  ph1tree : s'.ph1tree = s.ph1tree.filter fun p => p.addr ≠ del.addr
  sadb : s'.sadb.entries.Sublist s.sadb.entries
  between : ∀ sa ∈ s.sadb.entries, sa ∉ s'.sadb.entries → ph1RekeyEnabled del ∧ connects del sa
  ph2tree : (s'.ph2tree.map Ph2handle.addr).Sublist (s.ph2tree.map Ph2handle.addr)
  bound : ∀ p ∈ s.ph2tree, p.addr ∉ s'.ph2tree.map Ph2handle.addr → p.ph1 = some del.addr ∨
    ∃ sa ∈ s.sadb.entries, sa ∉ s'.sadb.entries ∧ CarriesSa sa p

theorem filter_map_ite (l : List Ph1handle) (addr : ℕ) (f : Ph1handle → Ph1handle)
    (hf : ∀ p, (f p).addr = p.addr) :
    ((l.map fun p => if p.addr = addr then f p else p).filter fun p => p.addr ≠ addr) =
      l.filter fun p => p.addr ≠ addr := by
  induction l with
  | nil => rfl
  | cons p l ih =>
    rw [List.map_cons]
    by_cases h : p.addr = addr
    · rw [if_pos h, List.filter_cons_of_neg (by simp [hf, h]), List.filter_cons_of_neg (by simp [h])]
      exact ih
    · rw [if_neg h, List.filter_cons_of_pos (by simp [h]), List.filter_cons_of_pos (by simp [h]), ih]

theorem migratePh12_addrs (oldIph1 newIph1 : Ph1handle) (s : State) :
    (migratePh12 oldIph1 newIph1 s).ph2tree.map Ph2handle.addr = s.ph2tree.map Ph2handle.addr := by
  rw [migratePh12, List.map_map]
  exact List.map_congr_left fun p _ => migrated_addr oldIph1 newIph1 p

theorem discardPh2s_bound {p : Ph2handle} (hp : p ∈ s.ph2tree)
    (hgone : p.addr ∉ (discardPh2s del s).ph2tree.map Ph2handle.addr) :
    p.ph1 = some del.addr := by
  by_contra hne
  apply hgone
  exact List.mem_map_of_mem (List.mem_filter.mpr ⟨hp, decide_eq_true hne⟩)

theorem migrated_ph1 {newIph1 : Ph1handle} {p : Ph2handle}
    (h : (migrated del newIph1 p).ph1 = some del.addr) : p.ph1 = some del.addr := by
  unfold migrated at h
  split_ifs at h with hold
  · exact hold.1
  · exact h

theorem isakmpPh1delete_takes (del : Ph1handle) (s : State) :
    TakesPh1 del s (isakmpPh1delete del s) := by
  have hdiscard : ∀ s : State, ((discardPh2s del s).ph2tree.map Ph2handle.addr).Sublist
      (s.ph2tree.map Ph2handle.addr) := fun s => List.filter_sublist.map _
  cases hnew : getph1 s del del.localAddr del.remote with
  | none =>
    have hrun : isakmpPh1delete del s = remph1 del (discardPh2s del s) := by
      rw [isakmpPh1delete, hnew]
    rw [hrun]
    exact {
      ph1tree := rfl
      sadb := List.Sublist.refl _
      between := fun _ hsa hgone => absurd hsa hgone
      ph2tree := hdiscard s
      bound := fun p hp hgone => .inl (discardPh2s_bound hp hgone) }
  | some newIph1 =>
    have hrun : isakmpPh1delete del s =
        remph1 del (discardPh2s del (migratePh12 del newIph1 s)) := by
      rw [isakmpPh1delete, hnew]
    rw [hrun]
    exact {
      ph1tree := rfl
      sadb := List.Sublist.refl _
      between := fun _ hsa hgone => absurd hsa hgone
      ph2tree := by
        rw [← migratePh12_addrs del newIph1 s]
        exact hdiscard _
      bound := by
        intro p hp hgone
        have hmem : migrated del newIph1 p ∈ (migratePh12 del newIph1 s).ph2tree :=
          List.mem_map_of_mem hp
        rw [← migrated_addr del newIph1 p] at hgone
        exact .inl (migrated_ph1 (discardPh2s_bound hmem hgone)) }

theorem TakesPh1.of_setPh1 {f : Ph1handle → Ph1handle} {hf : ∀ p, (f p).addr = p.addr}
    (h : TakesPh1 del (s.setPh1 del.addr f hf) s') : TakesPh1 del s s' where
  ph1tree := h.ph1tree.trans (filter_map_ite s.ph1tree del.addr f hf)
  sadb := h.sadb
  between := h.between
  ph2tree := h.ph2tree
  bound := h.bound

theorem TakesPh1.of_shrinks (h : Shrinks (fun sa => connects del sa) s s')
    (hrekey : ph1RekeyEnabled del) (h' : TakesPh1 del s' s'') : TakesPh1 del s s'' where
  ph1tree := by rw [h'.ph1tree, h.ph1tree]
  sadb := h'.sadb.trans h.sadb
  between := by
    intro sa hsa hgone
    by_cases hmid : sa ∈ s'.sadb.entries
    · exact h'.between sa hmid hgone
    · exact ⟨hrekey, h.selected sa hsa hmid⟩
  ph2tree := h'.ph2tree.trans (h.ph2tree.map _)
  bound := by
    intro p hp hgone
    by_cases hmid : p ∈ s'.ph2tree
    · rcases h'.bound p hmid hgone with hph1 | ⟨sa, hsa, hsagone, hcarries⟩
      · exact .inl hph1
      · exact .inr ⟨sa, h.sadb.subset hsa, hsagone, hcarries⟩
    · obtain ⟨sa, hsa, hsagone, hcarries⟩ := h.carried p hp hmid
      exact .inr ⟨sa, hsa, fun hmem => hsagone (h'.sadb.subset hmem), hcarries⟩

theorem deleteIsakmp_takes {index : Buf} (hdump : env.dump)
    (hdel : getph1byindex s index = some del) : TakesPh1 del s (deleteIsakmp env index s) := by
  rw [deleteIsakmp, hdel]
  dsimp only
  split_ifs with hrekey
  · rw [purgeRemote, hdump]
    have hexpired : ∀ t, TakesPh1 del (s.setPh1 del.addr expired fun _ => rfl) t → TakesPh1 del s t :=
      fun _ ht => ht.of_setPh1
    apply hexpired
    refine TakesPh1.of_shrinks ?_ hrekey (isakmpPh1delete_takes del _)
    exact foldl_shrinks (purgeRemoteSa_round del _) s.sadb.distinct fun _ h => h
  · rw [isakmpPh1expire]
    split_ifs
    · exact TakesPh1.of_setPh1 (isakmpPh1delete_takes del _)
    · exact isakmpPh1delete_takes del s

/-! ### The payload -/

/-- Whether SPIs have the size of their protocol. -/
def SpiSizeOk (protoId : ℤ) (size : ℕ) : Prop :=
  if protoId = IPSECDOI_PROTO_ISAKMP then size = INDEX_LEN
  else if protoId = IPSECDOI_PROTO_IPCOMP then size = 2 ∨ size = 4
  else size = 4

instance (protoId : ℤ) (size : ℕ) : Decidable (SpiSizeOk protoId size) :=
  inferInstanceAs (Decidable (ite _ _ _))

/-- A Deletion payload that is whole. -/
structure WellFormed (pl : Buf) : Prop where
  doi : longAt pl 4 = IPSEC_DOI
  len : shortAt pl 2 = PL_D_LEN + delNumSpi pl * delSpiSize pl
  whole : pl.length = shortAt pl 2
  size : SpiSizeOk (delProtoId pl) (delSpiSize pl)

/-- The SPIs that a payload lists. -/
def listed (pl : Buf) : List Buf :=
  (List.range (delNumSpi pl)).map fun i =>
    memcpy (pl.drop (PL_D_LEN + delSpiSize pl * i)) (delSpiSize pl)

/-- An SPI as an association has it: one of two bytes is the low half. -/
def wide (spi : Buf) : Buf := List.replicate (4 - spi.length) 0 ++ spi

/-- The lists read as they are sent: one cookie pair, and at most one CPI. -/
def ReadWhole (pl : Buf) : Prop :=
  (delProtoId pl = IPSECDOI_PROTO_ISAKMP → delNumSpi pl = 1) ∧
    (delProtoId pl = IPSECDOI_PROTO_IPCOMP → delNumSpi pl ≤ 1)

theorem WellFormed.twelve_le {pl : Buf} (h : WellFormed pl) : 12 ≤ pl.length := by
  rw [h.whole, h.len]
  exact Nat.le_add_right _ _

theorem shortAt_append_left {pl : Buf} (rest : Buf) {i : ℕ} (h : i + 1 < pl.length) :
    shortAt (pl ++ rest) i = shortAt pl i := by
  rw [shortAt, Aftr.byteAt_append_left (Nat.lt_of_succ_lt h), Aftr.byteAt_append_left h, shortAt]

theorem memcpy_append_left {pl : Buf} (rest : Buf) {i n : ℕ} (h : i + n ≤ pl.length) :
    memcpy ((pl ++ rest).drop i) n = memcpy (pl.drop i) n := by
  apply List.map_congr_left
  intro j hj
  have hjn := List.mem_range.mp hj
  rw [List.drop_append_of_le_length (by omega)]
  apply Aftr.byteAt_append_left
  rw [List.length_drop]
  omega

theorem memcpy_length (b : Buf) (n : ℕ) : (memcpy b n).length = n := by simp [memcpy]

/-- An SPI that has its four bytes. -/
theorem wide_memcpy (b : Buf) : wide (memcpy b 4) = memcpy b 4 := by
  rw [wide, memcpy_length]
  rfl

section Payload

variable {pl : Buf} (h : WellFormed pl) (rest : Buf)
include h

theorem longAt_doi : longAt (pl ++ rest) 4 = IPSEC_DOI := by
  have hlen := h.twelve_le
  rw [longAt, shortAt_append_left rest (by omega), shortAt_append_left rest (by omega)]
  exact h.doi

theorem delProtoId_append : delProtoId (pl ++ rest) = delProtoId pl := by
  have hlen := h.twelve_le
  rw [delProtoId, Aftr.byteAt_append_left (by omega), delProtoId]

theorem delSpiSize_append : delSpiSize (pl ++ rest) = delSpiSize pl := by
  have hlen := h.twelve_le
  rw [delSpiSize, Aftr.byteAt_append_left (by omega), delSpiSize]

theorem delNumSpi_append : delNumSpi (pl ++ rest) = delNumSpi pl := by
  have hlen := h.twelve_le
  rw [delNumSpi, shortAt_append_left rest (by omega), delNumSpi]

theorem length_matches :
    (shortAt (pl ++ rest) 2 : ℤ) - PL_D_LEN = delNumSpi pl * delSpiSize pl := by
  have hlen := h.twelve_le
  rw [shortAt_append_left rest (by omega), h.len]
  push_cast
  omega

/-- The SPIs read from the list of AH and ESP are the ones listed. -/
theorem delSpi_listed (hsize : delSpiSize pl = 4) :
    (List.range (delNumSpi pl)).map (delSpi (pl ++ rest)) = (listed pl).map wide := by
  rw [listed, List.map_map]
  apply List.map_congr_left
  intro i hi
  have hlt := List.mem_range.mp hi
  have hwhole := h.whole
  rw [h.len, hsize] at hwhole
  rw [Function.comp_apply, hsize, wide_memcpy]
  exact memcpy_append_left rest (by omega)

/-- So is the one CPI. -/
theorem ipcompSpis_listed (env : Env) (hproto : delProtoId pl = IPSECDOI_PROTO_IPCOMP)
    (hone : delNumSpi pl ≤ 1) : ∃ spi, delIpcompSpi (pl ++ rest) = some spi ∧
      ipcompSpis env spi (delNumSpi pl) = (listed pl).map wide := by
  have hsize := h.size
  have hwhole := h.whole
  rw [SpiSizeOk, if_neg (by rw [hproto]; decide), if_pos hproto] at hsize
  rw [h.len] at hwhole
  rw [delIpcompSpi, delSpiSize_append h rest]
  rcases Nat.le_one_iff_eq_zero_or_eq_one.mp hone with hnum | hnum
  · rcases hsize with hsize | hsize <;> rw [hsize, listed, hnum] <;> exact ⟨_, rfl, rfl⟩
  · rw [hnum, Nat.one_mul] at hwhole
    rcases hsize with hsize | hsize
    · rw [hsize, listed, hnum, hsize, if_pos rfl,
        memcpy_append_left rest (by omega : PL_D_LEN + 2 ≤ pl.length)]
      exact ⟨_, rfl, rfl⟩
    · rw [hsize, listed, hnum, hsize, if_neg (by decide), if_pos rfl,
        memcpy_append_left rest (by omega : PL_D_LEN + 4 ≤ pl.length)]
      exact ⟨_, rfl, congrArg (fun spi => [spi]) (wide_memcpy _).symm⟩

/-- The handler does with the memory from the payload on what the payload says. -/
theorem isakmpInfoRecvD_eq (hread : ReadWhole pl)
    (haccept : iph1.rmconf.any RmConf.weakPhase1Check ∨ enc) :
    isakmpInfoRecvD env iph1 (pl ++ rest) enc s =
      if delProtoId pl = IPSECDOI_PROTO_ISAKMP then
        deleteIsakmp env (memcpy (pl.drop PL_D_LEN) INDEX_LEN) s
      else purgeIpsecSpi env.dump iph1.remote (delProtoId pl) ((listed pl).map wide) s := by
  have hweak : ¬((!iph1.rmconf.any RmConf.weakPhase1Check && !enc) = true) := by
    rcases haccept with haccept | haccept <;> rw [haccept] <;> simp
  have hsize := h.size
  have hwhole := h.whole
  rw [h.len] at hwhole
  unfold isakmpInfoRecvD
  rw [longAt_doi h rest, delProtoId_append h rest, delSpiSize_append h rest,
    delNumSpi_append h rest, length_matches h rest]
  dsimp only
  rw [if_neg (fun hdoi => hdoi.1 rfl), if_neg (not_not.mpr rfl), if_neg hweak]
  by_cases hisakmp : delProtoId pl = IPSECDOI_PROTO_ISAKMP
  · rw [SpiSizeOk, if_pos hisakmp] at hsize
    rw [hread.1 hisakmp, Nat.one_mul] at hwhole
    rw [if_pos hisakmp, if_pos hisakmp, if_neg (not_not.mpr hsize),
      memcpy_append_left rest (by omega)]
  · rw [if_neg hisakmp, if_neg hisakmp]
    by_cases hipsec : delProtoId pl = IPSECDOI_PROTO_IPSEC_AH ∨
        delProtoId pl = IPSECDOI_PROTO_IPSEC_ESP
    · have hipcomp : delProtoId pl ≠ IPSECDOI_PROTO_IPCOMP := by
        rcases hipsec with hp | hp <;> rw [hp] <;> decide
      rw [SpiSizeOk, if_neg hisakmp, if_neg hipcomp] at hsize
      rw [if_pos hipsec, if_neg (not_not.mpr hsize), delSpi_listed h rest hsize]
    · rw [if_neg hipsec]
      by_cases hipcomp : delProtoId pl = IPSECDOI_PROTO_IPCOMP
      · obtain ⟨spi, hspi, hlisted⟩ := ipcompSpis_listed h rest env hipcomp (hread.2 hipcomp)
        rw [if_pos hipcomp, hspi]
        dsimp only
        rw [hlisted]
      · rw [if_neg hipcomp]
        push Not at hipsec
        rw [purgeIpsecSpi, ipsecdoi2pfkeyProto, if_neg hipsec.1, if_neg hipsec.2, if_neg hipcomp]

end Payload

/-- The associations that a payload names: of its protocol, with an SPI of its list,
    in use, and going to the sender. -/
def Named (iph1 : Ph1handle) (pl : Buf) (sa : SadbSa) : Prop :=
  ipsecdoi2pfkeyProto (delProtoId pl) = some sa.satype ∧ sa.spi ∈ (listed pl).map wide ∧
    (sa.state = .MATURE ∨ sa.state = .DYING) ∧ cmpsaddr iph1.remote sa.dst = .MATCH

theorem named_iff {pl : Buf} (hproto : ipsecdoi2pfkeyProto (delProtoId pl) = some satype) :
    Named iph1 pl sa ↔ Listed iph1.remote satype ((listed pl).map wide) sa := by
  rw [Named, Listed, hproto, purgeable]
  simp only [Option.some.injEq, Bool.and_eq_true, Bool.or_eq_true, decide_eq_true_eq]
  constructor
  · rintro ⟨hsatype, hspi, hstate, hdst⟩
    exact ⟨⟨⟨hsatype.symm, hstate⟩, hdst⟩, hspi⟩
  · rintro ⟨⟨⟨hsatype, hstate⟩, hdst⟩, hspi⟩
    exact ⟨hsatype.symm, hspi, hstate, hdst⟩

theorem purgeIpsecSpi_named {pl : Buf} :
    Purges (Named iph1 pl) s
      (purgeIpsecSpi true iph1.remote (delProtoId pl) ((listed pl).map wide) s) := by
  cases hproto : ipsecdoi2pfkeyProto (delProtoId pl) with
  | none =>
    rw [purgeIpsecSpi, hproto]
    apply Purges.of_none
    intro sa _ hnamed
    rw [Named, hproto] at hnamed
    cases hnamed.1
  | some satype =>
    have heq : Named iph1 pl = Listed iph1.remote satype ((listed pl).map wide) :=
      funext fun sa => propext (named_iff hproto)
    rw [heq]
    exact purgeIpsecSpi_purges hproto

/-- An association of the gateway with its peer, and a Deletion payload for it and
    another one. -/
def espSa : SadbSa :=
  { satype := .ESP
    src := gateway.localAddr
    dst := gateway.remote
    spi := [0, 0, 1, 1]
    state := .MATURE }

def espDelete : Buf :=
  [0, 0] ++ short 20 ++ [0, 0, 0, 1, 3, 4, 0, 2] ++ [0, 0, 1, 1] ++ [0, 0, 1, 2]

def tunnelState : State :=
  { gatewayState with
    sadb := { entries := [espSa], distinct := by decide } }

end WanStack.Racoon.Handles
