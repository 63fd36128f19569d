import WanStack.Racoon.SaWritten

set_option autoImplicit false

/-!
# The SA payload of an answer

`get_sabyproppair` copies proposals and transforms of the payload received. What
it makes is read back as the pairs it was made of, where the attributes of the
transforms end where these end.
-/
namespace WanStack.Racoon.Proposal
open Aftr (Buf byteAt shortAt hi lo)

/-! ### The payload of the answer -/

/-- The payload so far, and the offset of its last proposal. -/
structure NewSa where
  sa : Buf
  npP : Option ℕ

/-- One round of `get_sabyproppair`: the proposal of a pair and its transform. -/
def addPair (s : NewSa) (p : PropPair) : NewSa :=
  let trns := p.trns.headD []
  let prophlen := PL_P_LEN + spiSize p.prop
  let trnslen := shortAt trns 2
  let sa :=
    match s.npP with
    | none => s.sa
    | some npP => patch s.sa npP [UInt8.ofNat ISAKMP_NPTYPE_P]
  let prop := memcpy p.prop prophlen
  let prop := patch prop 0 [UInt8.ofNat ISAKMP_NPTYPE_NONE]
  let prop := patch prop 2 (short (prophlen + trnslen))
  let prop := patch prop 7 [1]
  let prop := patch prop PL_P_LEN (List.replicate (spiSize p.prop) 0)
  let copy := memcpy trns trnslen
  let copy := patch copy 0 [UInt8.ofNat ISAKMP_NPTYPE_NONE]
  let copy := patch copy 2 (short trnslen)
  { sa := sa ++ prop ++ copy, npP := some sa.length }

/-- `get_sabyproppair` for the pairs linked by `next`. -/
def getSabyproppair (doitype sittype : ℕ) (pair : List PropPair) : Buf :=
  (pair.foldl addPair { sa := long doitype ++ long sittype, npP := none }).sa

/-! ### What the walkers find -/

theorem parseLoop_mem (k np : ℕ) (gen : Buf) (tlen : ℤ) (pbuf : List IsakmpParse)
    (h : parseLoop k np gen tlen = some pbuf) (pa : IsakmpParse) (hpa : pa ∈ pbuf) :
    GEN_LEN ≤ shortAt pa.ptr 2 ∧ (shortAt pa.ptr 2 : ℤ) ≤ tlen := by
  induction k generalizing np gen tlen pbuf with
  | zero =>
    obtain rfl : [] = pbuf := Option.some.inj h
    cases hpa
  | succ k ih =>
    rw [parseLoop] at h
    dsimp only at h
    split_ifs at h with hend hshort hbad
    · obtain rfl : [] = pbuf := Option.some.inj h
      cases hpa
    · obtain ⟨rest, hrest, rfl⟩ := Option.map_eq_some_iff.mp h
      rcases List.mem_cons.mp hpa with rfl | hpa
      · show GEN_LEN ≤ shortAt gen 2 ∧ (shortAt gen 2 : ℤ) ≤ tlen
        omega
      · have hle := ih _ _ _ _ hrest hpa
        exact ⟨hle.1, by omega⟩

/-- A transform found in a proposal lies in it and passes the checks. -/
theorem getTransform_mem (prop : Buf) (trns : List Buf) (h : getTransform prop = some trns) (t : Buf)
    (ht : t ∈ trns) :
    GEN_LEN ≤ shortAt t 2 ∧ PL_P_LEN + spiSize prop + shortAt t 2 ≤ shortAt prop 2 ∧
      checkTransform (protoId prop) t := by
  obtain ⟨pbuf, hpbuf, rfl⟩ := Option.map_eq_some_iff.mp h
  obtain ⟨pa, hpa, rfl⟩ := List.mem_map.mp ht
  obtain ⟨hpa, hok⟩ := List.mem_filter.mp hpa
  obtain ⟨hgen, hle⟩ := parseLoop_mem _ _ _ _ _ hpbuf pa ((List.takeWhile_prefix _).subset hpa)
  exact ⟨hgen, by omega, hok⟩

/-- A pair as the loop over the proposal payloads leaves it. -/
structure Listed (mode : Mode) (n : ℕ) (p : PropPair) : Prop where
  number : pNo p.prop = n
  protocol : checkProtocol mode (protoId p.prop)
  spi : checkSpiSize (protoId p.prop) (spiSize p.prop)
  found : getTransform p.prop = some p.trns
  nonempty : p.trns ≠ []

theorem pairLoop_listed (mode : Mode) (pbuf : List IsakmpParse) (pair pair' : Pairs)
    (h : pairLoop mode pbuf pair = some pair') (hpair : ∀ n, ∀ p ∈ pair n, Listed mode n p) :
    ∀ n, ∀ p ∈ pair' n, Listed mode n p := by
  induction pbuf generalizing pair with
  | nil =>
    obtain rfl : pair = pair' := Option.some.inj h
    exact hpair
  | cons pa pbuf ih =>
    unfold pairLoop at h
    dsimp only at h
    split_ifs at h with htype hcheck
    · exact ih pair h hpair
    · split at h
      · exact absurd h (by simp)
      · exact ih pair h hpair
      · rename_i trns hne hfound
        apply ih _ h
        intro n p hp
        by_cases hn : n = pNo pa.ptr
        · subst hn
          rw [Function.update_self] at hp
          rcases List.mem_append.mp hp with hp | hp
          · exact hpair _ p hp
          · obtain rfl := List.mem_singleton.mp hp
            simp only [Bool.or_eq_true, Bool.not_eq_true', not_or, Bool.not_eq_false] at hcheck
            exact ⟨rfl, hcheck.1, hcheck.2, hfound, hne⟩
        · rw [Function.update_of_ne hn] at hp
          exact hpair n p hp

theorem getProppairAndDoiSit_listed (sa : Buf) (l : ℕ) (mode : Mode) (pair : Pairs) (doi sit : ℕ)
    (h : getProppairAndDoiSit sa l mode = some (pair, doi, sit)) :
    (∀ n, ∀ p ∈ pair n, Listed mode n p) ∧ doi = IPSEC_DOI ∧ sit = IPSECDOI_SIT_IDENTITY_ONLY := by
  unfold getProppairAndDoiSit at h
  dsimp only at h
  split_ifs at h with hl hdoi hsit
  split at h
  · exact absurd h (by simp)
  · split at h
    · exact absurd h (by simp)
    · rename_i hloop
      split_ifs at h
      obtain ⟨rfl, rfl, rfl⟩ : _ = pair ∧ _ = doi ∧ _ = sit := by simpa using h
      exact ⟨pairLoop_listed mode _ _ _ hloop (by simp), not_not.mp hdoi, not_not.mp hsit⟩

/-- The pairs keep the order of the payloads they point to. -/
theorem pairLoop_sublist (mode : Mode) (pbuf : List IsakmpParse) (pair pair' : Pairs)
    (h : pairLoop mode pbuf pair = some pair') (n : ℕ) :
    ∃ l, l.Sublist (pbuf.map IsakmpParse.ptr) ∧
      (pair' n).map PropPair.prop = (pair n).map PropPair.prop ++ l := by
  induction pbuf generalizing pair with
  | nil =>
    obtain rfl : pair = pair' := Option.some.inj h
    exact ⟨[], List.Sublist.refl _, (List.append_nil _).symm⟩
  | cons pa pbuf ih =>
    unfold pairLoop at h
    dsimp only at h
    split_ifs at h
    · obtain ⟨l, hl, hprops⟩ := ih pair h
      exact ⟨l, hl.cons _, hprops⟩
    · split at h
      · exact absurd h (by simp)
      · obtain ⟨l, hl, hprops⟩ := ih pair h
        exact ⟨l, hl.cons _, hprops⟩
      · obtain ⟨l, hl, hprops⟩ := ih _ h
        by_cases hn : n = pNo pa.ptr
        · subst hn
          rw [Function.update_self, List.map_append, List.append_assoc] at hprops
          exact ⟨_, hl.cons_cons pa.ptr, hprops⟩
        · rw [Function.update_of_ne hn] at hprops
          exact ⟨l, hl.cons _, hprops⟩

theorem getProppairAndDoiSit_sublist (sa : Buf) (l : ℕ) (mode : Mode) (pair : Pairs) (doi sit : ℕ)
    (h : getProppairAndDoiSit sa l mode = some (pair, doi, sit)) (n : ℕ) :
    ∃ pbuf, isakmpParsewoh ISAKMP_NPTYPE_P (sa.drop SA_B_LEN) (l - SA_B_LEN : ℕ) = some pbuf ∧
      ((pair n).map PropPair.prop).Sublist (pbuf.map IsakmpParse.ptr) := by
  unfold getProppairAndDoiSit at h
  dsimp only at h
  split_ifs at h
  split at h
  · exact absurd h (by simp)
  · rename_i pbuf hpbuf
    split at h
    · exact absurd h (by simp)
    · rename_i hloop
      split_ifs at h
      obtain ⟨rfl, -, -⟩ : _ = pair ∧ _ = doi ∧ _ = sit := by simpa using h
      obtain ⟨props, hsub, hprops⟩ := pairLoop_sublist mode pbuf _ _ hloop n
      exact ⟨pbuf, hpbuf, by rw [hprops]; exact hsub⟩

/-! ### Copies of memory -/

theorem memcpy_length (b : Buf) (n : ℕ) : (memcpy b n).length = n := by simp [memcpy]

theorem memcpy_add (b : Buf) (m n : ℕ) : memcpy b (m + n) = memcpy b m ++ memcpy (b.drop m) n := by
  unfold memcpy
  rw [List.range_add, List.map_append, List.map_map]
  congr 1
  apply List.map_congr_left
  intro i _
  simp [byteAt]

theorem memcpy_short (b : Buf) : memcpy b 2 = short (shortAt b 0) := by
  have hlow : (byteAt b 1).toNat < 256 := (byteAt b 1).toNat_lt
  have hhi : hi (shortAt b 0) = byteAt b 0 := by
    rw [hi, shortAt, Nat.zero_add, show ((byteAt b 0).toNat * 256 + (byteAt b 1).toNat) / 256 =
      (byteAt b 0).toNat by omega, UInt8.ofNat_toNat]
  have hlo : lo (shortAt b 0) = byteAt b 1 := by
    apply UInt8.toNat_inj.mp
    rw [Aftr.lo_toNat, shortAt, Nat.zero_add]
    omega
  rw [short, hhi, hlo]
  rfl

theorem shortAt_drop (b : Buf) (n i : ℕ) : shortAt (b.drop n) i = shortAt b (n + i) := by
  simp [shortAt, byteAt, Nat.add_assoc]

theorem shortAt_lt (b : Buf) (i : ℕ) : shortAt b i < 65536 := by
  have h0 := (byteAt b i).toNat_lt
  have h1 := (byteAt b (i + 1)).toNat_lt
  unfold shortAt
  omega

/-! ### Attributes and the memory they are read from -/

theorem memcpy_header (d : Buf) : memcpy d DATA_LEN = short (shortAt d 0) ++ short (shortAt d 2) := by
  rw [show DATA_LEN = 2 + 2 from rfl, memcpy_add, memcpy_short, memcpy_short, shortAt_drop]

theorem encAttrs_cons (a : Attr) (as : List Attr) : encAttrs (a :: as) = encAttr a ++ encAttrs as := by
  simp [encAttrs]

theorem encAttrs_cons_memcpy (a : Attr) (as : List Attr) (d : Buf) (size : ℕ)
    (ha : encAttr a = memcpy d size)
    (has : encAttrs as = memcpy (d.drop size) (encAttrs as).length) :
    encAttrs (a :: as) = memcpy d (encAttrs (a :: as)).length := by
  have hlen : (encAttrs (a :: as)).length = size + (encAttrs as).length := by
    rw [encAttrs_cons, List.length_append, ha, memcpy_length]
  rw [hlen, memcpy_add, ← ha, ← has, encAttrs_cons]

/-- The attributes found, written again, are the memory that was walked over. -/
theorem encAttrs_attrLoop (k : ℕ) (d : Buf) (tlen : ℤ) :
    encAttrs (attrLoop k d tlen) = memcpy d (encAttrs (attrLoop k d tlen)).length ∧
      ∀ a ∈ attrLoop k d tlen, WellFormed a := by
  induction k generalizing d tlen with
  | zero => exact ⟨rfl, by simp [attrLoop]⟩
  | succ k ih =>
    have hlt := shortAt_lt d 0
    unfold attrLoop
    dsimp only
    by_cases hend : ¬0 < tlen
    · rw [if_pos hend]
      exact ⟨rfl, by simp⟩
    rw [if_neg hend]
    by_cases htv : 32768 ≤ shortAt d 0
    · rw [if_pos htv]
      obtain ⟨hbytes, hall⟩ := ih (d.drop DATA_LEN) (tlen - DATA_LEN)
      constructor
      · apply encAttrs_cons_memcpy _ _ d DATA_LEN _ hbytes
        rw [memcpy_header, encAttr, if_pos rfl, show shortAt d 0 % 32768 + 32768 = shortAt d 0 by omega]
      · intro a ha
        rcases List.mem_cons.mp ha with rfl | ha
        · exact ⟨Nat.mod_lt _ (by decide), shortAt_lt d 2, rfl⟩
        · exact hall a ha
    · rw [if_neg htv]
      obtain ⟨hbytes, hall⟩ := ih (d.drop (DATA_LEN + shortAt d 2)) (tlen - (DATA_LEN + shortAt d 2 : ℕ))
      constructor
      · apply encAttrs_cons_memcpy _ _ d (DATA_LEN + shortAt d 2) _ hbytes
        rw [memcpy_add, memcpy_header, encAttr, if_neg Bool.false_ne_true,
          Nat.mod_eq_of_lt (Nat.lt_of_not_le htv)]
      · intro a ha
        rcases List.mem_cons.mp ha with rfl | ha
        · exact ⟨Nat.mod_lt _ (by decide), shortAt_lt d 2, memcpy_length _ _⟩
        · exact hall a ha

/-- Whether the attributes of a transform end where it ends. -/
def AttrsFit (t : Buf) : Prop := PL_T_LEN + (encAttrs (attributes t)).length = shortAt t 2

instance (t : Buf) : Decidable (AttrsFit t) := inferInstanceAs (Decidable (_ = _))

/-! ### The copy of a transform -/

/-- A transform as it is copied, without its header. -/
def trnsCopy (t : Buf) : Buf := (memcpy t (shortAt t 2)).drop GEN_LEN

theorem trnsCopy_length (t : Buf) (h : GEN_LEN ≤ shortAt t 2) :
    GEN_LEN + (trnsCopy t).length = shortAt t 2 := by
  rw [trnsCopy, List.length_drop, memcpy_length]
  omega

theorem trnsCopy_fit (t : Buf) (h : AttrsFit t) :
    trnsCopy t = [byteAt t 4, byteAt t 5, byteAt t 6, byteAt t 7] ++ encAttrs (attributes t) := by
  have hbytes : encAttrs (attributes t) =
      memcpy (t.drop PL_T_LEN) (encAttrs (attributes t)).length :=
    (encAttrs_attrLoop _ _ _).1
  rw [trnsCopy, ← h, memcpy_add, ← hbytes]
  rfl

/-- A transform with the fields read from it equal to those of `t`. -/
structure SameTrns (t' t : Buf) : Prop where
  no : tNo t' = tNo t
  id : tId t' = tId t
  attributes : attributes t' = attributes t

/-- The copy of a transform, whatever memory follows it, reads as the transform. -/
theorem trnsCopy_reads (t : Buf) (h : AttrsFit t) (np : ℕ) (hnp : np < 256) (rest : Buf) :
    SameTrns (framed np (byteAt t 1) (trnsCopy t) ++ rest) t := by
  have hgen : GEN_LEN ≤ shortAt t 2 := by
    rw [← h]
    exact Nat.le_trans (by decide : GEN_LEN ≤ PL_T_LEN) (Nat.le_add_right _ _)
  have hlen := trnsCopy_length t hgen
  have hlt := shortAt_lt t 2
  obtain ⟨-, hplen⟩ := framed_header np (byteAt t 1) (trnsCopy t) rest hnp (by omega)
  have hdrop : (framed np (byteAt t 1) (trnsCopy t) ++ rest).drop PL_T_LEN =
      encAttrs (attributes t) ++ rest := by
    rw [trnsCopy_fit t h]
    rfl
  have htlen : ((shortAt t 2 : ℕ) : ℤ) - PL_T_LEN = (encAttrs (attributes t)).length := by
    rw [← h]
    omega
  refine ⟨?_, ?_, ?_⟩
  · rw [trnsCopy_fit t h]
    rfl
  · rw [trnsCopy_fit t h]
    rfl
  · rw [attributes, hdrop, hplen, hlen, htlen, Int.toNat_natCast]
    exact attrLoop_encAttrs _ (encAttrs_attrLoop _ _ _).2 rest _ (Nat.le_refl _)

/-- The checks read nothing else. -/
theorem SameTrns.checkTransform {t' t : Buf} (h : SameTrns t' t) (protoId : ℤ) :
    checkTransform protoId t' = checkTransform protoId t := by
  have hid : (byteAt t' 5).toNat = (byteAt t 5).toNat := h.id
  simp only [Proposal.checkTransform, checkAttrIsakmp, checkAttrAh, checkAttrEsp, checkAttrIpcomp,
    checkAttrIpsec, hid, h.attributes]

/-! ### The copy of a proposal -/

/-- The first transform of a pair. -/
def firstTrns (p : PropPair) : Buf := p.trns.headD []

/-- A proposal as it is copied, without its header: the SPI is left out. -/
def propCopy (p : PropPair) : Buf :=
  [byteAt p.prop 4, byteAt p.prop 5, byteAt p.prop 6, 1] ++
    (List.replicate (spiSize p.prop) 0 ++
      framed ISAKMP_NPTYPE_NONE (byteAt (firstTrns p) 1) (trnsCopy (firstTrns p)))

/-- The payloads of one type after each other; what is left in the reserved byte is kept. -/
def frames (type : ℕ) : List (UInt8 × Buf) → Buf
  | [] => []
  | [x] => framed ISAKMP_NPTYPE_NONE x.1 x.2
  | x :: y :: xs => framed type x.1 x.2 ++ frames type (y :: xs)

def propFrame (p : PropPair) : UInt8 × Buf := (byteAt p.prop 1, propCopy p)

theorem propCopy_length (p : PropPair) (h : GEN_LEN ≤ shortAt (firstTrns p) 2) :
    GEN_LEN + (propCopy p).length = PL_P_LEN + spiSize p.prop + shortAt (firstTrns p) 2 := by
  have hlen := trnsCopy_length (firstTrns p) h
  have hgen : GEN_LEN = 4 := rfl
  have hplen : PL_P_LEN = 8 := rfl
  simp only [propCopy, List.length_append, List.length_replicate, framed_length, List.length_cons,
    List.length_nil]
  omega

/-- The fields written into the copy of a transform. -/
theorem write_trnsCopy (t : Buf) (h : GEN_LEN ≤ shortAt t 2) :
    patch (patch (memcpy t (shortAt t 2)) 0 [UInt8.ofNat ISAKMP_NPTYPE_NONE]) 2
      (short (shortAt t 2)) = framed ISAKMP_NPTYPE_NONE (byteAt t 1) (trnsCopy t) := by
  have hlen := trnsCopy_length t h
  have hsplit : memcpy t (shortAt t 2) =
      [byteAt t 0, byteAt t 1, byteAt t 2, byteAt t 3] ++ trnsCopy t := by
    have hadd : shortAt t 2 = GEN_LEN + (shortAt t 2 - GEN_LEN) := by omega
    rw [trnsCopy, hadd, memcpy_add, List.drop_left' (memcpy_length t GEN_LEN)]
    rfl
  rw [hsplit, framed, hlen]
  rfl

/-- The fields written into the copy of a proposal. -/
theorem write_propCopy (prop : Buf) (len : ℕ) :
    patch (patch (patch (patch (memcpy prop (PL_P_LEN + spiSize prop)) 0
      [UInt8.ofNat ISAKMP_NPTYPE_NONE]) 2 (short len)) 7 [1]) PL_P_LEN
      (List.replicate (spiSize prop) 0) =
      [UInt8.ofNat ISAKMP_NPTYPE_NONE, byteAt prop 1] ++ short len ++
        [byteAt prop 4, byteAt prop 5, byteAt prop 6, 1] ++ List.replicate (spiSize prop) 0 := by
  have hhead : patch (patch (patch (memcpy prop (PL_P_LEN + spiSize prop)) 0
      [UInt8.ofNat ISAKMP_NPTYPE_NONE]) 2 (short len)) 7 [1] =
      ([UInt8.ofNat ISAKMP_NPTYPE_NONE, byteAt prop 1] ++ short len ++
        [byteAt prop 4, byteAt prop 5, byteAt prop 6, 1]) ++
          (memcpy (prop.drop PL_P_LEN) (spiSize prop) ++ []) := by
    rw [memcpy_add, List.append_nil]
    rfl
  rw [hhead, patch_at _ _ _ _ PL_P_LEN rfl (by rw [List.length_replicate, memcpy_length]),
    List.append_nil]

def linkedFrames (type : ℕ) (xs : List (UInt8 × Buf)) : Buf :=
  (xs.map fun x => framed type x.1 x.2).flatten

theorem frames_snoc (type : ℕ) (xs : List (UInt8 × Buf)) (x : UInt8 × Buf) :
    frames type (xs ++ [x]) = linkedFrames type xs ++ framed ISAKMP_NPTYPE_NONE x.1 x.2 := by
  induction xs with
  | nil => rfl
  | cons y xs ih =>
    have hcons : frames type (y :: (xs ++ [x])) = framed type y.1 y.2 ++ frames type (xs ++ [x]) := by
      cases xs <;> rfl
    rw [List.cons_append, hcons, ih]
    simp [linkedFrames]

/-- The payload with the proposals `xs` behind the header. -/
def newSaOf (header : Buf) (xs : List (UInt8 × Buf)) : NewSa :=
  { sa := header ++ frames ISAKMP_NPTYPE_P xs
    npP :=
      if xs = [] then none
      else some (header.length + (linkedFrames ISAKMP_NPTYPE_P xs.dropLast).length) }

/-- Linking the last proposal. -/
theorem link_newSaOf (header : Buf) (xs : List (UInt8 × Buf)) :
    (match (newSaOf header xs).npP with
      | none => (newSaOf header xs).sa
      | some npP => patch (newSaOf header xs).sa npP [UInt8.ofNat ISAKMP_NPTYPE_P]) =
      header ++ linkedFrames ISAKMP_NPTYPE_P xs := by
  by_cases hxs : xs = []
  · subst hxs
    rfl
  · obtain ⟨init, last, rfl⟩ : ∃ init last, xs = init ++ [last] :=
      ⟨xs.dropLast, xs.getLast hxs, (List.dropLast_append_getLast hxs).symm⟩
    have hsplit : ∀ np, header ++ (linkedFrames ISAKMP_NPTYPE_P init ++ framed np last.1 last.2) =
        (header ++ linkedFrames ISAKMP_NPTYPE_P init) ++
          ([UInt8.ofNat np] ++ ([last.1] ++ short (GEN_LEN + last.2.length) ++ last.2)) := by
      intro np
      simp [framed]
    have hlinked : linkedFrames ISAKMP_NPTYPE_P (init ++ [last]) =
        linkedFrames ISAKMP_NPTYPE_P init ++ framed ISAKMP_NPTYPE_P last.1 last.2 := by
      simp [linkedFrames]
    simp only [newSaOf, if_neg hxs, List.dropLast_concat]
    rw [frames_snoc, hlinked, hsplit, hsplit, ← List.length_append]
    exact patch_mid _ _ _ _ rfl

theorem addPair_newSaOf (header : Buf) (xs : List (UInt8 × Buf)) (p : PropPair)
    (h : GEN_LEN ≤ shortAt (firstTrns p) 2) :
    addPair (newSaOf header xs) p = newSaOf header (xs ++ [propFrame p]) := by
  have hlen := propCopy_length p h
  have hprop : [UInt8.ofNat ISAKMP_NPTYPE_NONE, byteAt p.prop 1] ++
        short (PL_P_LEN + spiSize p.prop + shortAt (firstTrns p) 2) ++
        [byteAt p.prop 4, byteAt p.prop 5, byteAt p.prop 6, 1] ++
        List.replicate (spiSize p.prop) 0 ++
        framed ISAKMP_NPTYPE_NONE (byteAt (firstTrns p) 1) (trnsCopy (firstTrns p)) =
      framed ISAKMP_NPTYPE_NONE (propFrame p).1 (propFrame p).2 := by
    simp only [framed, propFrame, propCopy] at hlen ⊢
    rw [hlen]
    simp
  simp only [addPair, link_newSaOf, write_propCopy]
  rw [show p.trns.headD [] = firstTrns p from rfl, write_trnsCopy _ h, List.append_assoc,
    List.append_assoc, hprop]
  simp [newSaOf, frames_snoc]

theorem getSabyproppair_eq (doitype sittype : ℕ) (ps : List PropPair)
    (h : ∀ p ∈ ps, GEN_LEN ≤ shortAt (firstTrns p) 2) :
    getSabyproppair doitype sittype ps =
      long doitype ++ long sittype ++ frames ISAKMP_NPTYPE_P (ps.map propFrame) := by
  have hfold : ∀ xs, ps.foldl addPair (newSaOf (long doitype ++ long sittype) xs) =
      newSaOf (long doitype ++ long sittype) (xs ++ ps.map propFrame) := by
    induction ps with
    | nil => simp
    | cons p ps ih =>
      intro xs
      rw [List.foldl_cons, addPair_newSaOf _ _ _ (h p List.mem_cons_self),
        ih (fun p hp => h p (List.mem_cons_of_mem _ hp)), List.append_assoc]
      rfl
  have hstart : ({ sa := long doitype ++ long sittype, npP := none } : NewSa) =
      newSaOf (long doitype ++ long sittype) [] := by simp [newSaOf, frames]
  rw [getSabyproppair, hstart, hfold]
  rfl

/-! ### Reading it back -/

/-- What the walker finds in the payloads `xs` with `rest` behind them. -/
def frameParses (type : ℕ) : List (UInt8 × Buf) → Buf → List IsakmpParse
  | [], _ => []
  | x :: xs, rest =>
    { type := type, ptr := frames type (x :: xs) ++ rest, len := GEN_LEN + x.2.length } ::
      frameParses type xs rest

/-- The first payload, whatever it is, with the same bytes behind it. -/
theorem frames_head (type : ℕ) (hlt : type < 256) (xs : List (UInt8 × Buf)) :
    ∃ np more, np < 256 ∧ ∀ x, frames type (x :: xs) = framed np x.1 x.2 ++ more := by
  cases xs with
  | nil => exact ⟨ISAKMP_NPTYPE_NONE, [], by decide, fun x => (List.append_nil _).symm⟩
  | cons y xs => exact ⟨type, frames type (y :: xs), hlt, fun x => rfl⟩

theorem parseLoop_frameParses (type : ℕ) (htype : type ≠ 0) (hlt : type < 256)
    (xs : List (UInt8 × Buf)) (hxs : ∀ x ∈ xs, x.2 ≠ [] ∧ GEN_LEN + x.2.length < 65536) (rest : Buf)
    (k : ℕ) (hk : (frames type xs).length ≤ k) :
    parseLoop k type (frames type xs ++ rest) (frames type xs).length =
      some (frameParses type xs rest) := by
  induction xs generalizing k with
  | nil => exact parseLoop_end k type _
  | cons x xs ih =>
    obtain ⟨hne, hlen⟩ := hxs x List.mem_cons_self
    have hgen : GEN_LEN = 4 := rfl
    cases xs with
    | nil =>
      rw [show frames type [x] = framed ISAKMP_NPTYPE_NONE x.1 x.2 from rfl, framed_length] at hk ⊢
      obtain ⟨k, rfl⟩ : ∃ k', k = k' + 1 := ⟨k - 1, by omega⟩
      have hloop := parseLoop_framed k type ISAKMP_NPTYPE_NONE x.1 x.2 rest 0 htype (by decide) hlen hne
      rw [show ((0 : ℕ) : ℤ) = 0 from rfl, parseLoop_end] at hloop
      exact hloop
    | cons y xs =>
      have hcons : frames type (x :: y :: xs) = framed type x.1 x.2 ++ frames type (y :: xs) := rfl
      rw [hcons, List.length_append, framed_length] at hk ⊢
      obtain ⟨k, rfl⟩ : ∃ k', k = k' + 1 := ⟨k - 1, by omega⟩
      rw [List.append_assoc, parseLoop_framed k type type x.1 x.2 _ _ htype hlt hlen hne,
        ih (fun z hz => hxs z (List.mem_cons_of_mem _ hz)) k (by omega), ← List.append_assoc]
      rfl

/-- A payload of a type found where `x` was written. -/
def FoundAt (type : ℕ) (pa : IsakmpParse) (x : UInt8 × Buf) : Prop :=
  pa.type = type ∧ ∃ np more, np < 256 ∧ pa.ptr = framed np x.1 x.2 ++ more

theorem frameParses_found (type : ℕ) (hlt : type < 256) (xs : List (UInt8 × Buf)) (rest : Buf) :
    List.Forall₂ (FoundAt type) (frameParses type xs rest) xs := by
  induction xs with
  | nil => exact .nil
  | cons x xs ih =>
    obtain ⟨np, more, hnp, hframes⟩ := frames_head type hlt xs
    exact .cons ⟨rfl, np, more ++ rest, hnp, by rw [hframes, List.append_assoc]⟩ ih

theorem parseLoop_frames (type : ℕ) (htype : type ≠ 0) (hlt : type < 256) (xs : List (UInt8 × Buf))
    (hxs : ∀ x ∈ xs, x.2 ≠ [] ∧ GEN_LEN + x.2.length < 65536) (rest : Buf) (k : ℕ)
    (hk : (frames type xs).length ≤ k) :
    ∃ pbuf, parseLoop k type (frames type xs ++ rest) (frames type xs).length = some pbuf ∧
      List.Forall₂ (FoundAt type) pbuf xs :=
  ⟨_, parseLoop_frameParses type htype hlt xs hxs rest k hk, frameParses_found type hlt xs rest⟩

/-- A pair whose copy is accepted as it was itself. -/
structure Answerable (mode : Mode) (p : PropPair) : Prop where
  protocol : checkProtocol mode (protoId p.prop)
  spi : checkSpiSize (protoId p.prop) (spiSize p.prop)
  room : PL_P_LEN + spiSize p.prop + shortAt (firstTrns p) 2 < 65536
  ok : checkTransform (protoId p.prop) (firstTrns p)
  fit : AttrsFit (firstTrns p)

theorem Answerable.gen {mode : Mode} {p : PropPair} (h : Answerable mode p) :
    GEN_LEN ≤ shortAt (firstTrns p) 2 := by
  rw [← h.fit]
  exact Nat.le_trans (by decide : GEN_LEN ≤ PL_T_LEN) (Nat.le_add_right _ _)

theorem Listed.first_mem {mode : Mode} {n : ℕ} {p : PropPair} (h : Listed mode n p) :
    firstTrns p ∈ p.trns := by
  obtain ⟨t, ts, hts⟩ := List.exists_cons_of_ne_nil h.nonempty
  rw [firstTrns, hts]
  exact List.mem_cons_self

/-- Each transform found makes an answer, alone with its proposal. -/
theorem Listed.answerable {mode : Mode} {n : ℕ} {p : PropPair} (h : Listed mode n p) (t : Buf)
    (ht : t ∈ p.trns) (hfit : AttrsFit t) : Answerable mode { p with trns := [t] } := by
  obtain ⟨-, hroom, hok⟩ := getTransform_mem _ _ h.found t ht
  exact ⟨h.protocol, h.spi, Nat.lt_of_le_of_lt hroom (shortAt_lt _ _), hok, hfit⟩

/-- What is read where the copy of `p` stands. -/
structure Copied (p' p : PropPair) : Prop where
  number : pNo p'.prop = pNo p.prop
  protocol : protoId p'.prop = protoId p.prop
  spi : spiSize p'.prop = spiSize p.prop
  trns : ∃ t', p'.trns = [t'] ∧ SameTrns t' (firstTrns p)

theorem getTransform_propCopy (mode : Mode) (p : PropPair) (h : Answerable mode p) (np : ℕ)
    (hnp : np < 256) (rest : Buf) :
    let prop := framed np (propFrame p).1 (propFrame p).2 ++ rest
    ∃ t', getTransform prop = some [t'] ∧ Copied { prop := prop, trns := [t'] } p := by
  intro prop
  have hlen := propCopy_length p h.gen
  have htlen := trnsCopy_length (firstTrns p) h.gen
  have hroom := h.room
  obtain ⟨-, hplen⟩ := framed_header np (propFrame p).1 (propFrame p).2 rest hnp (by
    show GEN_LEN + (propCopy p).length < 65536
    omega)
  have hsize : spiSize prop = spiSize p.prop := rfl
  have hproto : protoId prop = protoId p.prop := rfl
  have hdrop : prop.drop (PL_P_LEN + spiSize p.prop) =
      frames ISAKMP_NPTYPE_T [(byteAt (firstTrns p) 1, trnsCopy (firstTrns p))] ++ rest := by
    rw [← List.drop_drop]
    show (List.replicate (spiSize p.prop) 0 ++ framed ISAKMP_NPTYPE_NONE (byteAt (firstTrns p) 1)
      (trnsCopy (firstTrns p)) ++ rest).drop (spiSize p.prop) = _
    rw [List.append_assoc]
    exact List.drop_left' List.length_replicate
  have htrns : ((shortAt prop 2 : ℕ) : ℤ) - (PL_P_LEN + spiSize p.prop : ℕ) =
      (frames ISAKMP_NPTYPE_T [(byteAt (firstTrns p) 1, trnsCopy (firstTrns p))]).length := by
    rw [show shortAt prop 2 = _ from hplen, show (propFrame p).2 = propCopy p from rfl, hlen,
      show frames ISAKMP_NPTYPE_T _ = framed _ _ _ from rfl, framed_length, htlen]
    omega
  have hbody : trnsCopy (firstTrns p) ≠ [] := by
    rw [trnsCopy_fit _ h.fit]
    exact List.cons_ne_nil _ _
  obtain ⟨pbuf, hparse, hall⟩ := parseLoop_frames ISAKMP_NPTYPE_T (by decide) (by decide)
    [(byteAt (firstTrns p) 1, trnsCopy (firstTrns p))] (by
      intro x hx
      obtain rfl := List.mem_singleton.mp hx
      refine ⟨hbody, ?_⟩
      show GEN_LEN + (trnsCopy (firstTrns p)).length < 65536
      omega) rest _ (Nat.le_refl _)
  obtain ⟨pa, _, ⟨htype, np', more, hnp', hptr⟩, hnil, rfl⟩ := List.forall₂_cons_right_iff.mp hall
  obtain rfl := List.forall₂_nil_right_iff.mp hnil
  have hsame : SameTrns pa.ptr (firstTrns p) := by
    rw [hptr]
    exact trnsCopy_reads _ h.fit np' hnp' more
  refine ⟨pa.ptr, ?_, rfl, rfl, rfl, pa.ptr, rfl, hsame⟩
  rw [getTransform, hsize, htrns, hdrop, isakmpParsewoh, Int.toNat_natCast, hparse, hproto,
    Option.map_some]
  have hok : checkTransform (protoId p.prop) pa.ptr = true := (hsame.checkTransform _).trans h.ok
  simp [htype, hok]

/-- The pairs of `ps` with the number `n`. -/
def numbered (n : ℕ) (ps : List PropPair) : List PropPair := ps.filter fun p => pNo p.prop = n

theorem pairLoop_copies (mode : Mode) (ps : List PropPair) (h : ∀ p ∈ ps, Answerable mode p)
    (pbuf : List IsakmpParse) (hpbuf : List.Forall₂ (FoundAt ISAKMP_NPTYPE_P) pbuf (ps.map propFrame))
    (pair : Pairs) (seen : List PropPair) (hpair : ∀ n, List.Forall₂ Copied (pair n) (numbered n seen)) :
    ∃ pair', pairLoop mode pbuf pair = some pair' ∧
      ∀ n, List.Forall₂ Copied (pair' n) (numbered n (seen ++ ps)) := by
  induction ps generalizing pbuf pair seen with
  | nil =>
    obtain rfl := List.forall₂_nil_right_iff.mp hpbuf
    rw [List.append_nil]
    exact ⟨pair, rfl, hpair⟩
  | cons p ps ih =>
    obtain ⟨pa, pbuf, ⟨htype, np, more, hnp, hptr⟩, hrest, rfl⟩ :=
      List.forall₂_cons_right_iff.mp hpbuf
    have hp := h p List.mem_cons_self
    obtain ⟨t', hget, hcopied⟩ := getTransform_propCopy mode p hp np hnp more
    rw [← hptr] at hget hcopied
    have hpair' : ∀ n, List.Forall₂ Copied
        (Function.update pair (pNo pa.ptr) (pair (pNo pa.ptr) ++ [⟨pa.ptr, [t']⟩]) n)
        (numbered n (seen ++ [p])) := by
      intro n
      rw [numbered, List.filter_append]
      by_cases hn : n = pNo pa.ptr
      · subst hn
        rw [Function.update_self]
        apply List.rel_append (hpair _)
        rw [List.filter_cons_of_pos (by simpa using hcopied.number.symm)]
        exact .cons hcopied .nil
      · rw [Function.update_of_ne hn,
          List.filter_cons_of_neg (by simpa using fun he => hn (he.symm.trans hcopied.number.symm)),
          List.filter_nil, List.append_nil]
        exact hpair n
    obtain ⟨pair', hloop, hall⟩ := ih (fun p hp => h p (List.mem_cons_of_mem _ hp)) pbuf hrest _
      (seen ++ [p]) hpair'
    refine ⟨pair', ?_, by rwa [List.append_assoc] at hall⟩
    have hcheck : (!checkProtocol mode (protoId pa.ptr) ||
        !checkSpiSize (protoId pa.ptr) (spiSize pa.ptr)) = false := by
      rw [hcopied.protocol, hcopied.spi, hp.protocol, hp.spi]
      rfl
    rw [pairLoop, if_neg (by rw [htype]; decide)]
    simp only [hcheck, hget]
    exact hloop

/-- The payload made of pairs is accepted, and reading it gives back the pairs of each
    number, with one transform each. -/
theorem getSabyproppair_reads (mode : Mode) (ps : List PropPair) (hne : ps ≠ [])
    (h : ∀ p ∈ ps, Answerable mode p) (rest : Buf) :
    let sa := getSabyproppair IPSEC_DOI IPSECDOI_SIT_IDENTITY_ONLY ps
    ∃ pair, getProppairAndDoiSit (sa ++ rest) sa.length mode =
        some (pair, IPSEC_DOI, IPSECDOI_SIT_IDENTITY_ONLY) ∧
      ∀ n, List.Forall₂ Copied (pair n) (numbered n ps) := by
  intro sa
  have hsa : sa = saB ++ frames ISAKMP_NPTYPE_P (ps.map propFrame) :=
    getSabyproppair_eq _ _ ps fun p hp => (h p hp).gen
  obtain ⟨hdoi, hsit, hdrop⟩ := saB_reads (frames ISAKMP_NPTYPE_P (ps.map propFrame) ++ rest)
  have hlength : sa.length = SA_B_LEN + (frames ISAKMP_NPTYPE_P (ps.map propFrame)).length := by
    rw [hsa, List.length_append]
    rfl
  obtain ⟨pbuf, hparse, hall⟩ := parseLoop_frames ISAKMP_NPTYPE_P (by decide) (by decide)
    (ps.map propFrame) (by
      intro x hx
      obtain ⟨p, hp, rfl⟩ := List.mem_map.mp hx
      have hlen := propCopy_length p (h p hp).gen
      have hroom := (h p hp).room
      refine ⟨List.cons_ne_nil _ _, ?_⟩
      show GEN_LEN + (propCopy p).length < 65536
      omega) rest _ (Nat.le_refl _)
  obtain ⟨pair, hloop, hpair⟩ := pairLoop_copies mode ps h pbuf hall (fun _ => []) [] fun _ => .nil
  have hsome : ¬((List.range MAXPROPPAIRLEN).all fun i => (pair i).isEmpty) = true := by
    obtain ⟨p, qs, rfl⟩ := List.exists_cons_of_ne_nil hne
    intro hempty
    have hnone := List.all_eq_true.mp hempty (pNo p.prop) (List.mem_range.mpr (UInt8.toNat_lt _))
    have hnumbered := hpair (pNo p.prop)
    rw [List.isEmpty_iff.mp hnone, List.nil_append, numbered, List.filter_cons_of_pos (by simp)] at hnumbered
    cases hnumbered
  refine ⟨pair, ?_, hpair⟩
  rw [hlength, hsa, List.append_assoc, getProppairAndDoiSit, if_neg (by omega)]
  simp only [hdoi, hsit, hdrop, Nat.add_sub_cancel_left, isakmpParsewoh, Int.toNat_natCast, hparse,
    hloop]
  rw [if_neg (by decide), if_neg (by decide), if_neg hsome]

end WanStack.Racoon.Proposal
