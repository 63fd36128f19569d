import WanStack.Racoon.IsakmpFrag
import WanStack.Racoon.Phase2
import Mathlib.Data.List.Forall2

set_option autoImplicit false

/-!
# The payload answered

What stands in `sa_ret` before and after `ipsecdoi_updatespi`: the same proposals,
each with the SPI that was written into it.
-/
namespace WanStack.Racoon.Phase2
open Aftr (Buf byteAt shortAt)
open Proposal

/-! ### Reading a payload as it stands -/

/-- The transforms of a proposal, as its lengths delimit them. -/
def wireTransforms (prop : Buf) : Option (List Buf) :=
  let tlen : ℤ := shortAt prop 2 - (PL_P_LEN + spiSize prop : ℕ)
  (isakmpParsewoh ISAKMP_NPTYPE_T (prop.drop (PL_P_LEN + spiSize prop)) tlen).map fun pbuf =>
    pbuf.map IsakmpParse.ptr

def wirePair (pa : IsakmpParse) : Option PropPair :=
  (wireTransforms pa.ptr).map fun trns => { prop := pa.ptr, trns := trns }

/-- The proposals of an SA payload, with no check of what they say. -/
def wireProposals (sa : Buf) : Option (List PropPair) :=
  (isakmpParsewoh ISAKMP_NPTYPE_P (sa.drop SA_B_LEN) (sa.length - SA_B_LEN : ℕ)).bind fun pbuf =>
    pbuf.mapM wirePair

/-! ### Proposals with SPIs -/

/-- The copy of a pair's proposal with an SPI in it. -/
def propWith (spi : Buf) (p : PropPair) : Buf :=
  [byteAt p.prop 4, byteAt p.prop 5, byteAt p.prop 6, 1] ++
    (spi ++ framed ISAKMP_NPTYPE_NONE (byteAt (firstTrns p) 1) (trnsCopy (firstTrns p)))

def spiFrame (x : Buf × PropPair) : UInt8 × Buf := (byteAt x.2.prop 1, propWith x.1 x.2)

/-- The answer made of pairs, each with an SPI. -/
def answerWith (xs : List (Buf × PropPair)) : Buf := saB ++ frames ISAKMP_NPTYPE_P (xs.map spiFrame)

/-- A pair that lies in a payload, with an SPI of its size. -/
structure Fits (x : Buf × PropPair) : Prop where
  spi : x.1.length = spiSize x.2.prop
  gen : GEN_LEN ≤ shortAt (firstTrns x.2) 2
  room : PL_P_LEN + spiSize x.2.prop + shortAt (firstTrns x.2) 2 < 65536

theorem propWith_length {x : Buf × PropPair} (h : Fits x) :
    GEN_LEN + (propWith x.1 x.2).length =
      PL_P_LEN + spiSize x.2.prop + shortAt (firstTrns x.2) 2 := by
  have hlen := trnsCopy_length (firstTrns x.2) h.gen
  have hspi := h.spi
  have hplen : PL_P_LEN = 8 := rfl
  have hgen : GEN_LEN = 4 := rfl
  simp only [propWith, List.length_append, framed_length, List.length_cons, List.length_nil]
  omega

/-- A proposal of the payload, read back. -/
structure ReadAs (p : PropPair) (x : Buf × PropPair) : Prop where
  number : pNo p.prop = pNo x.2.prop
  protocol : protoId p.prop = protoId x.2.prop
  spiSize : spiSize p.prop = Proposal.spiSize x.2.prop
  spi : memcpy (p.prop.drop PL_P_LEN) (Proposal.spiSize p.prop) = x.1
  trns : ∃ rest, p.trns =
    [framed ISAKMP_NPTYPE_NONE (byteAt (firstTrns x.2) 1) (trnsCopy (firstTrns x.2)) ++ rest]

/-- Where a proposal stands its transform is found, unless nothing of it was copied. -/
theorem wirePair_frame {x : Buf × PropPair} (h : Fits x) (pa : IsakmpParse)
    (hpa : FoundAt ISAKMP_NPTYPE_P pa (spiFrame x)) :
    (trnsCopy (firstTrns x.2) = [] → wirePair pa = none) ∧
      (trnsCopy (firstTrns x.2) ≠ [] → ∃ p, wirePair pa = some p ∧ ReadAs p x) := by
  obtain ⟨-, np, more, hnp, hptr⟩ := hpa
  have hlen := propWith_length h
  have htlen := trnsCopy_length (firstTrns x.2) h.gen
  have hroom := h.room
  obtain ⟨-, hplen⟩ := framed_header np (spiFrame x).1 (spiFrame x).2 more hnp (by
    show GEN_LEN + (propWith x.1 x.2).length < 65536
    omega)
  rw [← hptr] at hplen
  have hsize : spiSize pa.ptr = spiSize x.2.prop := by rw [hptr]; rfl
  have hspi : pa.ptr.drop PL_P_LEN = x.1 ++
      (framed ISAKMP_NPTYPE_NONE (byteAt (firstTrns x.2) 1) (trnsCopy (firstTrns x.2)) ++ more) := by
    rw [hptr, ← List.append_assoc]
    rfl
  have hdrop : pa.ptr.drop (PL_P_LEN + spiSize x.2.prop) =
      framed ISAKMP_NPTYPE_NONE (byteAt (firstTrns x.2) 1) (trnsCopy (firstTrns x.2)) ++ more := by
    rw [← List.drop_drop, hspi]
    exact List.drop_left' h.spi
  have hleft : ((shortAt pa.ptr 2 : ℕ) : ℤ) - (PL_P_LEN + spiSize x.2.prop : ℕ) =
      (GEN_LEN + (trnsCopy (firstTrns x.2)).length + 0 : ℕ) := by
    rw [hplen, show (spiFrame x).2 = propWith x.1 x.2 from rfl, hlen, htlen]
    omega
  constructor
  · intro hempty
    rw [wirePair, wireTransforms, hsize, hleft, hdrop, hempty]
    rfl
  · intro hne
    obtain ⟨k, hk⟩ : ∃ k, GEN_LEN + (trnsCopy (firstTrns x.2)).length + 0 = k + 1 :=
      ⟨3 + (trnsCopy (firstTrns x.2)).length, by
        rw [show GEN_LEN = 4 from rfl]
        omega⟩
    have hloop := parseLoop_framed k ISAKMP_NPTYPE_T ISAKMP_NPTYPE_NONE (byteAt (firstTrns x.2) 1)
      (trnsCopy (firstTrns x.2)) more 0 (by decide) (by decide) (by omega) hne
    rw [show ((0 : ℕ) : ℤ) = 0 from rfl, parseLoop_end, hk] at hloop
    rw [hk] at hleft
    refine ⟨{ prop := pa.ptr
              trns := [framed ISAKMP_NPTYPE_NONE (byteAt (firstTrns x.2) 1)
                (trnsCopy (firstTrns x.2)) ++ more] }, ?_, ?_⟩
    · rw [wirePair, wireTransforms, hsize, hleft, hdrop, isakmpParsewoh, Int.toNat_natCast, hloop]
      rfl
    · refine ⟨by rw [hptr]; rfl, by rw [hptr]; rfl, hsize, ?_, more, rfl⟩
      show memcpy (pa.ptr.drop PL_P_LEN) (spiSize pa.ptr) = x.1
      rw [hspi, hsize, ← h.spi]
      exact memcpy_append _ _

/-- The walk over the proposals of an answer. -/
theorem isakmpParsewoh_answerWith (xs : List (Buf × PropPair)) (h : ∀ x ∈ xs, Fits x) :
    isakmpParsewoh ISAKMP_NPTYPE_P ((answerWith xs).drop SA_B_LEN)
      ((answerWith xs).length - SA_B_LEN : ℕ) =
        some (frameParses ISAKMP_NPTYPE_P (xs.map spiFrame) []) := by
  have hloop := parseLoop_frameParses ISAKMP_NPTYPE_P (by decide) (by decide) (xs.map spiFrame) (by
    intro y hy
    obtain ⟨x, hx, rfl⟩ := List.mem_map.mp hy
    have hlen := propWith_length (h x hx)
    have hroom := (h x hx).room
    refine ⟨List.cons_ne_nil _ _, ?_⟩
    show GEN_LEN + (propWith x.1 x.2).length < 65536
    omega) [] _ (Nat.le_refl _)
  have hdrop : (answerWith xs).drop SA_B_LEN = frames ISAKMP_NPTYPE_P (xs.map spiFrame) := rfl
  have hlen : (answerWith xs).length - SA_B_LEN =
      (frames ISAKMP_NPTYPE_P (xs.map spiFrame)).length := by
    rw [← hdrop, List.length_drop]
  rw [isakmpParsewoh, hdrop, hlen, Int.toNat_natCast, ← hloop, List.append_nil]

theorem mapM_wirePair (xs : List (Buf × PropPair)) (h : ∀ x ∈ xs, Fits x) (pbuf : List IsakmpParse)
    (hpbuf : List.Forall₂ (FoundAt ISAKMP_NPTYPE_P) pbuf (xs.map spiFrame)) :
    (∀ ps, pbuf.mapM wirePair = some ps →
        List.Forall₂ ReadAs ps xs ∧ ∀ x ∈ xs, trnsCopy (firstTrns x.2) ≠ []) ∧
      ((∀ x ∈ xs, trnsCopy (firstTrns x.2) ≠ []) → pbuf.mapM wirePair ≠ none) := by
  induction xs generalizing pbuf with
  | nil =>
    obtain rfl := List.forall₂_nil_right_iff.mp hpbuf
    refine ⟨fun ps hps => ?_, fun _ => by simp⟩
    obtain rfl : [] = ps := Option.some.inj hps
    exact ⟨.nil, by simp⟩
  | cons x xs ih =>
    obtain ⟨pa, pbuf, hpa, hrest, rfl⟩ := List.forall₂_cons_right_iff.mp hpbuf
    obtain ⟨hempty, hfound⟩ := wirePair_frame (h x List.mem_cons_self) pa hpa
    obtain ⟨hsome, hnone⟩ := ih (fun y hy => h y (List.mem_cons_of_mem _ hy)) pbuf hrest
    constructor
    · intro ps hps
      obtain ⟨p, ps, hp, hrest, rfl⟩ := List.forall₂_cons_left_iff.mp ((PartialRun.mapM_forall₂ _ _ _).mp hps)
      obtain ⟨hread, hne⟩ := hsome ps ((PartialRun.mapM_forall₂ _ _ _).mpr hrest)
      have hx : trnsCopy (firstTrns x.2) ≠ [] := by
        intro hx
        rw [hempty hx] at hp
        exact absurd hp (by simp)
      obtain ⟨p', hp', hreads⟩ := hfound hx
      obtain rfl : p' = p := Option.some.inj (hp'.symm.trans hp)
      exact ⟨.cons hreads hread, List.forall_mem_cons.mpr ⟨hx, hne⟩⟩
    · intro hne
      obtain ⟨hx, hne⟩ := List.forall_mem_cons.mp hne
      obtain ⟨p, hp, -⟩ := hfound hx
      obtain ⟨ps, hps⟩ := Option.ne_none_iff_exists'.mp (hnone hne)
      rw [List.mapM_cons, hp, hps]
      simp

/-- An answer is read as what it was made of, if and only if something of each transform
    was copied. -/
theorem wireProposals_answerWith (xs : List (Buf × PropPair)) (h : ∀ x ∈ xs, Fits x) :
    (∀ ps, wireProposals (answerWith xs) = some ps →
        List.Forall₂ ReadAs ps xs ∧ ∀ x ∈ xs, trnsCopy (firstTrns x.2) ≠ []) ∧
      ((∀ x ∈ xs, trnsCopy (firstTrns x.2) ≠ []) → wireProposals (answerWith xs) ≠ none) := by
  rw [wireProposals, isakmpParsewoh_answerWith xs h]
  exact mapM_wirePair xs h _ (frameParses_found ISAKMP_NPTYPE_P (by decide) _ [])

/-! ### Writing the SPIs -/

theorem frames_append (type : ℕ) (xs : List (UInt8 × Buf)) (y : UInt8 × Buf) (ys : List (UInt8 × Buf)) :
    frames type (xs ++ y :: ys) = linkedFrames type xs ++ frames type (y :: ys) := by
  induction xs with
  | nil => rfl
  | cons x xs ih =>
    have hcons : frames type (x :: (xs ++ y :: ys)) =
        framed type x.1 x.2 ++ frames type (xs ++ y :: ys) := by
      cases xs <;> rfl
    rw [List.cons_append, hcons, ih, ← List.append_assoc]
    rfl

/-- One SPI written over another. -/
theorem patch_spi (done : List (Buf × PropPair)) (x : Buf × PropPair) (spi : Buf)
    (hspi : spi.length = x.1.length) (rest : List (Buf × PropPair)) :
    patch (answerWith (done ++ x :: rest))
        ((answerWith (done ++ x :: rest)).length -
          (frames ISAKMP_NPTYPE_P ((x :: rest).map spiFrame)).length + PL_P_LEN) spi =
      answerWith (done ++ (spi, x.2) :: rest) := by
  obtain ⟨np, more, -, hframes⟩ := frames_head ISAKMP_NPTYPE_P (by decide) (rest.map spiFrame)
  have hsplit : ∀ y : Buf × PropPair, answerWith (done ++ y :: rest) =
      saB ++ linkedFrames ISAKMP_NPTYPE_P (done.map spiFrame) ++
        frames ISAKMP_NPTYPE_P ((y :: rest).map spiFrame) := by
    intro y
    rw [answerWith, List.map_append, List.map_cons, frames_append, ← List.append_assoc]
  have hbytes : ∀ y : Buf × PropPair, y.2 = x.2 → y.1.length = x.1.length →
      frames ISAKMP_NPTYPE_P ((y :: rest).map spiFrame) =
        ([UInt8.ofNat np, byteAt x.2.prop 1] ++ short (GEN_LEN + (propWith x.1 x.2).length) ++
          [byteAt x.2.prop 4, byteAt x.2.prop 5, byteAt x.2.prop 6, 1]) ++
          (y.1 ++ (framed ISAKMP_NPTYPE_NONE (byteAt (firstTrns x.2) 1) (trnsCopy (firstTrns x.2)) ++
            more)) := by
    intro y hy hlen
    have hbody : (propWith y.1 y.2).length = (propWith x.1 x.2).length := by
      rw [hy]
      simp only [propWith, List.length_append, hlen]
    rw [List.map_cons, hframes, spiFrame, framed, hbody, hy]
    simp [propWith]
  have hoff : (answerWith (done ++ x :: rest)).length -
      (frames ISAKMP_NPTYPE_P ((x :: rest).map spiFrame)).length =
        (saB ++ linkedFrames ISAKMP_NPTYPE_P (done.map spiFrame)).length := by
    rw [hsplit, List.length_append, Nat.add_sub_cancel]
  rw [hoff, hsplit, hsplit, hbytes x rfl rfl, hbytes (spi, x.2) rfl hspi,
    ← List.append_assoc (saB ++ _) _ (x.1 ++ _), ← List.append_assoc (saB ++ _) _ (spi ++ _)]
  apply patch_at _ _ _ _ _ _ hspi
  simp [PL_P_LEN, Nat.add_assoc]

/-- The loop over the pairs of an answer, each of which has its protocol in the approval. -/
theorem spiLoop_answerWith (approval : Saprop) (xs ys done : List (Buf × PropPair))
    (ps : List PropPair)
    (hprops : ps.map PropPair.prop =
      (frameParses ISAKMP_NPTYPE_P (xs.map spiFrame) []).map IsakmpParse.ptr)
    (hys : List.Forall₂ (fun x y => y.2 = x.2 ∧ y.1.length = x.1.length) xs ys)
    (hspis : List.Forall₂ (fun p y => ∃ pr, protoFor approval p = some pr ∧
      pr.spi.drop (4 - pr.spisize) = y.1) ps ys) :
    spiLoop approval ps (answerWith (done ++ xs)) = (true, answerWith (done ++ ys)) := by
  induction hys generalizing done ps with
  | nil =>
    obtain rfl := List.forall₂_nil_right_iff.mp hspis
    rfl
  | @cons x y xs ys hxy _ ih =>
    obtain ⟨p, ps, ⟨pr, hproto, hspi⟩, hrest, rfl⟩ := List.forall₂_cons_right_iff.mp hspis
    obtain ⟨hprop, hprops⟩ := List.cons.inj hprops
    have hlen : p.prop.length = (frames ISAKMP_NPTYPE_P ((x :: xs).map spiFrame)).length := by
      rw [hprop, List.append_nil]
      rfl
    have hwrite : writeSpi (answerWith (done ++ x :: xs)) p pr = answerWith (done ++ y :: xs) := by
      rw [writeSpi, hlen, hspi, patch_spi done x y.1 hxy.2 xs, ← hxy.1]
    unfold spiLoop
    simp only [hproto, hwrite]
    have happend : ∀ zs, done ++ y :: zs = done ++ [y] ++ zs := fun zs => by simp
    rw [happend xs, happend ys]
    exact ih (done ++ [y]) ps hprops hrest

/-- A pair with no SPI yet. -/
def blank (r : PropPair) : Buf × PropPair := (List.replicate (spiSize r.prop) 0, r)

theorem getSabyproppair_answerWith (ret : List PropPair) (h : ∀ r ∈ ret, Fits (blank r)) :
    getSabyproppair IPSEC_DOI IPSECDOI_SIT_IDENTITY_ONLY ret = answerWith (ret.map blank) := by
  rw [getSabyproppair_eq _ _ ret fun r hr => (h r hr).gen, answerWith, List.map_map]
  rfl

theorem fits_of_answerable {mode : Mode} {r : PropPair} (h : Answerable mode r) : Fits (blank r) :=
  ⟨List.length_replicate, h.gen, h.room⟩

/-- `ipsecdoi_updatespi` on an answer made of pairs of one number, where each pair has its
    protocol in the approval. -/
theorem ipsecdoiUpdatespi_answerWith (approval : Saprop) (ret : List PropPair) (hne : ret ≠ [])
    (hok : ∀ r ∈ ret, Answerable .PH2 r) (n : ℕ) (hn : n < MAXPROPPAIRLEN)
    (hnumber : ∀ r ∈ ret, pNo r.prop = n) (spiOf : PropPair → Buf)
    (hlen : ∀ r ∈ ret, (spiOf r).length = spiSize r.prop)
    (hspi : ∀ r ∈ ret, ∀ q, Copied q r → ∃ pr, protoFor approval q = some pr ∧
      pr.spi.drop (4 - pr.spisize) = spiOf r) :
    ipsecdoiUpdatespi approval (getSabyproppair IPSEC_DOI IPSECDOI_SIT_IDENTITY_ONLY ret) =
      (true, answerWith (ret.map fun r => (spiOf r, r))) := by
  have hfits : ∀ x ∈ ret.map blank, Fits x := by
    intro x hx
    obtain ⟨r, hr, rfl⟩ := List.mem_map.mp hx
    exact fits_of_answerable (hok r hr)
  have hsa := getSabyproppair_answerWith ret fun r hr => fits_of_answerable (hok r hr)
  obtain ⟨pair, hpair, hcopied⟩ := getSabyproppair_reads .PH2 ret hne hok []
  rw [List.append_nil, hsa] at hpair
  have hsplit : ∀ m, numbered m ret = if m = n then ret else [] := by
    intro m
    split
    · rename_i hm
      exact List.filter_eq_self.mpr fun r hr => by simpa [hm] using hnumber r hr
    · rename_i hm
      exact List.filter_eq_nil_iff.mpr fun r hr => by simpa [hnumber r hr] using Ne.symm hm
  have hown : List.Forall₂ Copied (pair n) ret := by
    have hread := hcopied n
    rwa [hsplit, if_pos rfl] at hread
  have hother : ∀ m, m ≠ n → pair m = [] := by
    intro m hm
    have hread := hcopied m
    rw [hsplit, if_neg hm] at hread
    exact List.forall₂_nil_right_iff.mp hread
  -- the pointers are the proposals of the payload in order
  obtain ⟨pbuf, hpbuf, hsub⟩ := getProppairAndDoiSit_sublist _ _ _ _ _ _ hpair n
  rw [isakmpParsewoh_answerWith _ hfits] at hpbuf
  obtain rfl := Option.some.inj hpbuf
  have hparses := (frameParses_found ISAKMP_NPTYPE_P (by decide) ((ret.map blank).map spiFrame) []).length_eq
  have hprops : (pair n).map PropPair.prop =
      (frameParses ISAKMP_NPTYPE_P ((ret.map blank).map spiFrame) []).map IsakmpParse.ptr := by
    apply hsub.eq_of_length
    rw [List.length_map, List.length_map, hown.length_eq, hparses]
    simp
  obtain ⟨p, ps, hps⟩ : ∃ p ps, pair n = p :: ps := by
    apply List.exists_cons_of_ne_nil
    intro hempty
    rw [hempty] at hown
    exact hne (List.forall₂_nil_left_iff.mp hown)
  have hfirst : (List.range MAXPROPPAIRLEN).find? (fun i => pair i ≠ []) = some n := by
    have hsome : ((List.range MAXPROPPAIRLEN).find? fun i => pair i ≠ []).isSome := by
      rw [List.find?_isSome]
      exact ⟨n, List.mem_range.mpr hn, by simp [hps]⟩
    obtain ⟨i, hi⟩ := Option.isSome_iff_exists.mp hsome
    rw [hi]
    by_contra hin
    have hne' := List.find?_some hi
    rw [hother i fun he => hin (congrArg some he)] at hne'
    exact absurd hne' (by decide)
  have hone : ¬1 < p.trns.length := by
    rw [hps] at hown
    obtain ⟨r, _, hr, -, -⟩ := List.forall₂_cons_left_iff.mp hown
    obtain ⟨t', ht', -⟩ := hr.trns
    rw [ht']
    exact Nat.lt_irrefl 1
  have hloop := spiLoop_answerWith approval (ret.map blank) (ret.map fun r => (spiOf r, r)) []
    (pair n) hprops (by
      rw [List.forall₂_map_left_iff, List.forall₂_map_right_iff, List.forall₂_same]
      intro r hr
      exact ⟨rfl, by rw [hlen r hr]; exact List.length_replicate.symm⟩) (by
      rw [List.forall₂_map_right_iff, List.forall₂_iff_get]
      refine ⟨hown.length_eq, fun i hi hi' => ?_⟩
      have hcopy := (List.forall₂_iff_get.mp hown).2 i hi hi'
      exact hspi _ (List.get_mem _ _) _ hcopy)
  rw [hps] at hloop
  rw [hsa, ipsecdoiUpdatespi, getProppair, hpair, Option.map_some]
  simp only [hfirst, hps, if_neg hone]
  exact hloop

end WanStack.Racoon.Phase2
