import WanStack.Radvd.RaChecks

set_option autoImplicit false

/-!
# What an option is judged by

Two advertisements that differ behind an option: whether `process_ra` finds the
same in it, for options of every kind and at every place.
-/
namespace WanStack.Radvd
open Aftr (Buf byteAt bytesAt shortAt)
open Lib.Walk

/-- The mismatches that the `i`th round of the loop reports. -/
def conclusions (iface : Interface) (msg : Buf) (i : ℕ) : List Report :=
  match ((raRounds iface (msg.drop raHeaderLen)).getD [])[i]? with
  | none => []
  | some opt => mismatches (raRound iface opt).1

/-- A message with the option `o` behind others and in front of any bytes. -/
def message (header : Vector UInt8 raHeaderLen) (before : List RaOption) (o : RaOption)
    (rest : Buf) : Buf :=
  header.toList ++ (flatOptions before ++ (o.bytes ++ rest))

/-- The addresses of an RDNSS option that the configuration does not have. -/
def rdnssMissing (iface : Interface) (opt : Buf) : List Report :=
  (rdnssAddrs opt).flatMap (rdnssFound iface)

/-- What is concluded from the option does not depend on what follows it, and the
    addresses of an RDNSS option are all checked. -/
def JudgedAlone (iface : Interface) (header : Vector UInt8 raHeaderLen) (before : List RaOption)
    (o : RaOption) : Prop :=
  (∀ rest rest', conclusions iface (message header before o rest) before.length =
      conclusions iface (message header before o rest') before.length) ∧
    (byteAt o.bytes 0 = ND_OPT_RDNSS_INFORMATION → ∀ rest,
      conclusions iface (message header before o rest) before.length = rdnssMissing iface o.bytes)

/-! ### The room that is asked for -/

/-- How much must be left of the message at an option. -/
def RaOption.need (o : RaOption) : ℕ :=
  if byteAt o.bytes 0 = ND_OPT_PREFIX_INFORMATION then 32
  else if byteAt o.bytes 0 = ND_OPT_RDNSS_INFORMATION then 56 else 0

/-- Every option has the room it needs in what is left up to its end, to that of
    the options behind it and to that of `k` bytes more. -/
def Roomy (k : ℕ) : List RaOption → Prop
  | [] => True
  | o :: os => o.need ≤ (flatOptions (o :: os)).length + k ∧ Roomy k os

theorem RaOption.need_le (o : RaOption) : o.need ≤ 56 := by
  unfold RaOption.need
  split_ifs <;> omega

theorem roomy_of_long {k : ℕ} (h : 56 ≤ k) (os : List RaOption) : Roomy k os := by
  induction os with
  | nil => trivial
  | cons o os ih =>
    have hneed := o.need_le
    exact ⟨by omega, ih⟩

theorem roomy_mono {k m : ℕ} (h : k ≤ m) {os : List RaOption} (hroomy : Roomy k os) : Roomy m os := by
  induction os with
  | nil => trivial
  | cons o os ih => exact ⟨Nat.le_trans hroomy.1 (Nat.add_le_add_left h _), ih hroomy.2⟩

theorem roomy_snoc (k : ℕ) (os : List RaOption) (o : RaOption) :
    Roomy k (os ++ [o]) ↔ Roomy (o.bytes.length + k) os ∧ o.need ≤ o.bytes.length + k := by
  induction os with
  | nil => simp [Roomy, flatOptions]
  | cons x os ih =>
    have hlen : (flatOptions (x :: (os ++ [o]))).length + k =
        (flatOptions (x :: os)).length + (o.bytes.length + k) := by
      simp [flatOptions]
      omega
    rw [List.cons_append, Roomy, Roomy, ih, hlen, and_assoc]

section Round
variable (o : RaOption) (rest : Buf)

theorem RaOption.byteAt_append {i : ℕ} (h : i < o.bytes.length) :
    byteAt (o.bytes ++ rest) i = byteAt o.bytes i := Aftr.byteAt_append_left h

theorem RaOption.optlenOf_append : optlenOf (o.bytes ++ rest) = o.bytes.length := by
  have height := o.eight
  have hwhole := o.whole
  unfold optlenOf at hwhole ⊢
  rw [o.byteAt_append rest (by omega), hwhole]

theorem RaOption.announced : Announced (o.bytes ++ rest) := by
  have height := o.eight
  unfold Announced
  rw [o.optlenOf_append rest, List.length_append]
  omega

theorem RaOption.returns_iff : RaReturns (o.bytes ++ rest) ↔ ¬ o.need ≤ o.bytes.length + rest.length := by
  have height := o.eight
  unfold RaReturns RaOption.need
  rw [o.byteAt_append rest (by omega), List.length_append]
  by_cases hpre : byteAt o.bytes 0 = ND_OPT_PREFIX_INFORMATION
  · simp [hpre, ND_OPT_PREFIX_INFORMATION, ND_OPT_RDNSS_INFORMATION]
  by_cases hrdnss : byteAt o.bytes 0 = ND_OPT_RDNSS_INFORMATION
  · simp [hrdnss, ND_OPT_PREFIX_INFORMATION, ND_OPT_RDNSS_INFORMATION]
  · simp [hpre, hrdnss]

theorem RaOption.next_iff :
    raNext (o.bytes ++ rest) = some o.bytes.length ↔ o.need ≤ o.bytes.length + rest.length := by
  unfold raNext nextOption
  rw [if_pos (o.announced rest), o.optlenOf_append rest]
  by_cases hreturns : RaReturns (o.bytes ++ rest)
  · simpa [hreturns] using (o.returns_iff rest).mp hreturns
  · simpa [hreturns] using not_not.mp (mt (o.returns_iff rest).mpr hreturns)

theorem RaOption.next_cases :
    raNext (o.bytes ++ rest) = none ∨ raNext (o.bytes ++ rest) = some o.bytes.length := by
  unfold raNext nextOption
  rw [if_pos (o.announced rest), o.optlenOf_append rest]
  split
  · exact Or.inl rfl
  · exact Or.inr rfl

theorem goesOver_iff (os : List RaOption) :
    GoesOver raNext (os.map RaOption.bytes) rest ↔ Roomy rest.length os := by
  induction os with
  | nil => exact Iff.rfl
  | cons o os ih =>
    change raNext (o.bytes ++ (flatOptions os ++ rest)) = some o.bytes.length ∧ _ ↔ _ ∧ _
    rw [ih, o.next_iff]
    simp [flatOptions, Nat.add_assoc]

end Round

/-- What is concluded from an option: what is found in it, if the loop comes to
    it and does not return there. -/
theorem conclusions_eq (iface : Interface) (header : Vector UInt8 raHeaderLen)
    (before : List RaOption) (o : RaOption) (rest : Buf) :
    (Roomy rest.length (before ++ [o]) →
      conclusions iface (message header before o rest) before.length =
        optionFound iface (o.bytes ++ rest)) ∧
      (¬ Roomy rest.length (before ++ [o]) →
        conclusions iface (message header before o rest) before.length = []) := by
  have hall : o.bytes ++ rest ≠ [] := by simp [o.ne_nil]
  obtain ⟨rs, hrs, hreached, hmissed⟩ := walk_reaches advances_raNext (before.map RaOption.bytes)
    hall (by
      intro p hp
      obtain ⟨x, -, rfl⟩ := List.mem_map.mp hp
      exact ⟨x.ne_nil, x.next_cases⟩)
  rw [List.length_map, goesOver_iff, List.length_append] at hreached hmissed
  have hdrop : (message header before o rest).drop raHeaderLen =
      (before.map RaOption.bytes).flatten ++ (o.bytes ++ rest) :=
    List.drop_left' header.size_toArray
  unfold conclusions
  rw [hdrop, raRounds_eq, hrs, roomy_snoc]
  constructor
  · rintro ⟨hbefore, hneed⟩
    have hstays : ¬ RaReturns (o.bytes ++ rest) := fun hret => (o.returns_iff rest).mp hret hneed
    simp only [Option.getD_some, hreached hbefore, mismatches_raRound]
    rw [if_pos ⟨o.announced rest, hstays⟩]
  · intro hnot
    by_cases hbefore : Roomy (o.bytes.length + rest.length) before
    · have hret : RaReturns (o.bytes ++ rest) :=
        (o.returns_iff rest).mpr fun hneed => hnot ⟨hbefore, hneed⟩
      simp only [Option.getD_some, hreached hbefore, mismatches_raRound]
      rw [if_neg fun hboth => hboth.2 hret]
    · simp only [Option.getD_some, hmissed hbefore]

/-! ### The bytes that are looked at -/

/-- The first `n` bytes are the same. -/
def Alike (n : ℕ) (b c : Buf) : Prop := ∀ i < n, byteAt b i = byteAt c i

section Alike
variable {n : ℕ} {b c : Buf} (h : Alike n b c)

include h

theorem Alike.longAt {i : ℕ} (hi : i + 4 ≤ n) : longAt b i = longAt c i := by
  unfold Radvd.longAt Aftr.shortAt
  rw [h i (by omega), h (i + 1) (by omega), h (i + 2) (by omega), h (i + 2 + 1) (by omega)]

theorem Alike.addrAt {i : ℕ} (hi : i + 16 ≤ n) : addrAt b i = addrAt c i := by
  unfold Radvd.addrAt
  congr 1
  funext j
  exact h (i + j) (by omega)

theorem Alike.prefixFound (hn : 32 ≤ n) : prefixFound b = prefixFound c := by
  funext p
  unfold Radvd.prefixFound
  rw [h 2 (by omega), h.addrAt (by omega), h.longAt (i := 4) (by omega), h.longAt (i := 8) (by omega)]

theorem Alike.rdnssAddrs (htwo : 2 ≤ n) (hn : optlenOf b ≤ n) : rdnssAddrs b = rdnssAddrs c := by
  have hlen := h 1 (by omega)
  unfold optlenOf at hn
  unfold Radvd.rdnssAddrs
  rw [← hlen]
  dsimp only
  split_ifs
  · rw [h.addrAt (i := 40) (by omega), h.addrAt (i := 24) (by omega), h.addrAt (i := 8) (by omega)]
  · rw [h.addrAt (i := 24) (by omega), h.addrAt (i := 8) (by omega)]
  · rw [h.addrAt (i := 8) (by omega)]
  · rfl

theorem Alike.optionFound (iface : Interface) (height : 8 ≤ n)
    (hpre : byteAt b 0 = ND_OPT_PREFIX_INFORMATION → 32 ≤ n)
    (hrdnss : byteAt b 0 = ND_OPT_RDNSS_INFORMATION → optlenOf b ≤ n) :
    optionFound iface b = optionFound iface c := by
  unfold Radvd.optionFound
  rw [← h 0 (by omega), h.longAt (i := 4) (by omega)]
  split_ifs with _ _ htype hrd
  · rfl
  · rfl
  · rw [h.prefixFound (hpre htype)]
  · rw [h.rdnssAddrs (by omega) (hrdnss hrd)]
  · rfl

end Alike

theorem RaOption.alike (o : RaOption) (rest : Buf) : Alike o.bytes.length (o.bytes ++ rest) o.bytes :=
  fun _ hi => o.byteAt_append rest hi

/-! ### What can be found -/

/-- The prefix of an option is ours with other lifetimes; of bytes that the
    option does not have, any may be thought of. -/
def PrefixDiffers (iface : Interface) (opt : Buf) : Prop :=
  ∃ p ∈ iface.AdvPrefixList, p.PrefixLen = byteAt opt 2 ∧ p.DecrementLifetimesFlag = false ∧
    (∃ addr : In6Addr,
      (∀ j < 16, 16 + j < opt.length → byteAt addr.toList j = byteAt opt (16 + j)) ∧
      addrMatch p.Prefix addr p.PrefixLen.toNat) ∧
    (opt.length < 12 ∨ longAt opt 4 ≠ p.AdvValidLifetime.toNat ∨
      longAt opt 8 ≠ p.AdvPreferredLifetime.toNat)

/-- Something could be found in an option. -/
def CouldDiffer (iface : Interface) (opt : Buf) : Prop :=
  byteAt opt 0 = ND_OPT_MTU ∧ iface.AdvLinkMTU ≠ 0 ∧ longAt opt 4 ≠ iface.AdvLinkMTU.toNat ∨
    byteAt opt 0 = ND_OPT_PREFIX_INFORMATION ∧ PrefixDiffers iface opt ∨
    byteAt opt 0 = ND_OPT_RDNSS_INFORMATION ∧
      ∃ addr ∈ rdnssAddrs opt, checkRdnssPresence iface.AdvRDNSSList addr = false

section Found
variable (iface : Interface)

theorem prefixFound_ne_nil (opt : Buf) (p : AdvPrefix) : prefixFound opt p ≠ [] ↔
    p.PrefixLen = byteAt opt 2 ∧ addrMatch p.Prefix (addrAt opt 16) p.PrefixLen.toNat ∧
      p.DecrementLifetimesFlag = false ∧
      (longAt opt 4 ≠ p.AdvValidLifetime.toNat ∨ longAt opt 8 ≠ p.AdvPreferredLifetime.toNat) := by
  unfold prefixFound
  split
  · next hall =>
    obtain ⟨hlen, hmatch, hdecr⟩ := hall
    simp only [hlen, hlen ▸ hmatch, hdecr, ne_eq, List.append_eq_nil_iff, ite_eq_right_iff,
      List.cons_ne_nil, imp_false, not_not, not_and_or, true_and]
  · next hnot =>
    refine iff_of_false (by simp) ?_
    rintro ⟨hlen, hmatch, hdecr, -⟩
    exact hnot ⟨hlen, hmatch, hdecr⟩

theorem flatMap_ne_nil {α β : Type} (f : α → List β) (xs : List α) :
    xs.flatMap f ≠ [] ↔ ∃ x ∈ xs, f x ≠ [] := by
  simp [List.flatMap_eq_nil_iff]

theorem rdnssMissing_ne_nil (opt : Buf) : rdnssMissing iface opt ≠ [] ↔
    ∃ addr ∈ rdnssAddrs opt, checkRdnssPresence iface.AdvRDNSSList addr = false := by
  unfold rdnssMissing
  rw [flatMap_ne_nil]
  simp [rdnssFound]

variable (o : RaOption) (rest : Buf)

theorem optionFound_rdnss (h : byteAt o.bytes 0 = ND_OPT_RDNSS_INFORMATION) :
    optionFound iface (o.bytes ++ rest) = rdnssMissing iface o.bytes := by
  have height := o.eight
  have hfirst := o.byteAt_append rest (i := 0) (by omega)
  rw [(o.alike rest).optionFound iface height, optionFound, h]
  · rfl
  · rw [hfirst, h]
    exact fun hne => absurd hne (by decide)
  · rw [o.optlenOf_append rest]
    exact fun _ => Nat.le_refl _

theorem optionFound_mtu (h : byteAt o.bytes 0 = ND_OPT_MTU) :
    optionFound iface (o.bytes ++ rest) =
      if iface.AdvLinkMTU ≠ 0 ∧ longAt o.bytes 4 ≠ iface.AdvLinkMTU.toNat then [.linkMTU] else [] := by
  have height := o.eight
  unfold optionFound
  rw [o.byteAt_append rest (by omega), h, (o.alike rest).longAt (by omega)]
  rfl

theorem optionFound_pio (h : byteAt o.bytes 0 = ND_OPT_PREFIX_INFORMATION) :
    optionFound iface (o.bytes ++ rest) =
      iface.AdvPrefixList.flatMap (prefixFound (o.bytes ++ rest)) := by
  have height := o.eight
  unfold optionFound
  rw [o.byteAt_append rest (by omega), h]
  rfl

theorem optionFound_other (hmtu : byteAt o.bytes 0 ≠ ND_OPT_MTU)
    (hpre : byteAt o.bytes 0 ≠ ND_OPT_PREFIX_INFORMATION)
    (hrdnss : byteAt o.bytes 0 ≠ ND_OPT_RDNSS_INFORMATION) :
    optionFound iface (o.bytes ++ rest) = [] := by
  have height := o.eight
  unfold optionFound
  rw [o.byteAt_append rest (by omega), if_neg hmtu, if_neg hpre, if_neg hrdnss]

/-- Whatever follows, nothing is found where nothing can be. -/
theorem couldDiffer_of_found (h : optionFound iface (o.bytes ++ rest) ≠ []) :
    CouldDiffer iface o.bytes := by
  have height := o.eight
  by_cases hmtu : byteAt o.bytes 0 = ND_OPT_MTU
  · rw [optionFound_mtu iface o rest hmtu] at h
    split_ifs at h with hdiffers
    · exact Or.inl ⟨hmtu, hdiffers⟩
    · exact absurd rfl h
  by_cases hpre : byteAt o.bytes 0 = ND_OPT_PREFIX_INFORMATION
  · rw [optionFound_pio iface o rest hpre] at h
    refine Or.inr (Or.inl ⟨hpre, ?_⟩)
    obtain ⟨p, hp, hfound⟩ := (flatMap_ne_nil _ _).mp h
    obtain ⟨hlen, hmatch, hdecr, hlifetimes⟩ := (prefixFound_ne_nil _ p).mp hfound
    rw [o.byteAt_append rest (by omega)] at hlen
    refine ⟨p, hp, hlen, hdecr, ⟨addrAt (o.bytes ++ rest) 16, ?_, hmatch⟩, ?_⟩
    · intro j hj hown
      rw [← o.byteAt_append rest hown]
      simp [addrAt, Aftr.byteAt, hj]
    · by_cases hshort : o.bytes.length < 12
      · exact Or.inl hshort
      · rw [(o.alike rest).longAt (by omega), (o.alike rest).longAt (by omega)] at hlifetimes
        exact Or.inr hlifetimes
  by_cases hrdnss : byteAt o.bytes 0 = ND_OPT_RDNSS_INFORMATION
  · rw [optionFound_rdnss iface o rest hrdnss, rdnssMissing_ne_nil] at h
    exact Or.inr (Or.inr ⟨hrdnss, h⟩)
  · exact absurd (optionFound_other iface o rest hmtu hpre hrdnss) h

/-- A preferred lifetime other than `n`. -/
def otherLifetime (n : ℕ) : Buf := if n = 0 then [0, 0, 0, 1] else [0, 0, 0, 0]

/-- A prefix information with this prefix, without its first eight bytes. -/
def prefixTemplate (n : ℕ) (addr : In6Addr) : Buf :=
  List.replicate 8 0 ++ otherLifetime n ++ List.replicate 4 0 ++ addr.toList

/-- The bytes that `opt` lacks of it, and more. -/
def completion (opt : Buf) (n : ℕ) (addr : In6Addr) : Buf :=
  (prefixTemplate n addr).drop opt.length ++ List.replicate 56 0

theorem length_prefixTemplate (n : ℕ) (addr : In6Addr) : (prefixTemplate n addr).length = 32 := by
  unfold prefixTemplate otherLifetime
  split <;> simp

theorem longAt_prefixTemplate (n : ℕ) (addr : In6Addr) : longAt (prefixTemplate n addr) 8 ≠ n := by
  unfold prefixTemplate otherLifetime
  by_cases hn : n = 0
  · rw [if_pos hn, hn]
    simp [longAt, Aftr.shortAt, Aftr.byteAt, List.replicate]
  · rw [if_neg hn]
    have hzero : longAt (List.replicate 8 0 ++ [0, 0, 0, 0] ++ List.replicate 4 0 ++ addr.toList) 8 =
        0 := by
      simp [longAt, Aftr.shortAt, Aftr.byteAt, List.replicate]
    rw [hzero]
    exact fun h => hn h.symm

theorem byteAt_prefixTemplate (n : ℕ) (addr : In6Addr) (j : ℕ) :
    byteAt (prefixTemplate n addr) (16 + j) = byteAt addr.toList j := by
  have hlen : (List.replicate 8 0 ++ otherLifetime n ++ List.replicate 4 (0 : UInt8)).length = 16 := by
    unfold otherLifetime
    split <;> simp
  rw [prefixTemplate, Aftr.byteAt_append_right (by omega), hlen, Nat.add_sub_cancel_left]

variable {o} in
theorem byteAt_completion (n : ℕ) (addr : In6Addr) {i : ℕ} (hle : o.bytes.length ≤ i) (hlt : i < 32) :
    byteAt (o.bytes ++ completion o.bytes n addr) i = byteAt (prefixTemplate n addr) i := by
  have htemplate := length_prefixTemplate n addr
  rw [Aftr.byteAt_append_right hle, completion,
    Aftr.byteAt_append_left (by rw [List.length_drop]; omega)]
  simp only [Aftr.byteAt, List.getD_eq_getElem?_getD, List.getElem?_drop]
  rw [Nat.add_sub_cancel' hle]

theorem longAt_completion (n : ℕ) (addr : In6Addr) (h : o.bytes.length = 8) :
    longAt (o.bytes ++ completion o.bytes n addr) 8 ≠ n := by
  have hsame : longAt (o.bytes ++ completion o.bytes n addr) 8 = longAt (prefixTemplate n addr) 8 := by
    unfold longAt Aftr.shortAt
    simp only [byteAt_completion n addr (Nat.le_of_eq h), byteAt_completion n addr
      (show o.bytes.length ≤ 9 by omega), byteAt_completion n addr
      (show o.bytes.length ≤ 10 by omega), byteAt_completion n addr
      (show o.bytes.length ≤ 11 by omega), Nat.reduceLT]
  rw [hsame]
  exact longAt_prefixTemplate n addr

theorem addrAt_completion (n : ℕ) (addr : In6Addr)
    (h : ∀ j < 16, 16 + j < o.bytes.length → byteAt addr.toList j = byteAt o.bytes (16 + j)) :
    addrAt (o.bytes ++ completion o.bytes n addr) 16 = addr := by
  apply Vector.ext
  intro j hj
  have hbyte : byteAt addr.toList j = addr[j] := by simp [Aftr.byteAt, hj]
  simp only [addrAt, Vector.getElem_ofFn]
  by_cases hown : 16 + j < o.bytes.length
  · rw [o.byteAt_append _ hown, ← h j hj hown, hbyte]
  · rw [byteAt_completion n addr (Nat.not_lt.mp hown) (by omega), byteAt_prefixTemplate, hbyte]

theorem found_of_couldDiffer (h : CouldDiffer iface o.bytes) :
    ∃ rest, 56 ≤ rest.length ∧ optionFound iface (o.bytes ++ rest) ≠ [] := by
  have height := o.eight
  rcases h with ⟨hmtu, hdiffers⟩ | ⟨hpre, hdiffers⟩ | ⟨hrdnss, hmissing⟩
  · refine ⟨List.replicate 56 0, by simp, ?_⟩
    rw [optionFound_mtu iface o _ hmtu, if_pos hdiffers]
    exact List.cons_ne_nil _ _
  · obtain ⟨p, hp, hlen, hdecr, ⟨addr, haddr, hmatch⟩, hlifetimes⟩ := hdiffers
    refine ⟨completion o.bytes p.AdvPreferredLifetime.toNat addr, by simp [completion], ?_⟩
    rw [optionFound_pio iface o _ hpre, flatMap_ne_nil]
    refine ⟨p, hp, ?_⟩
    rw [prefixFound_ne_nil, addrAt_completion o _ addr haddr, o.byteAt_append _ (by omega)]
    refine ⟨hlen, hmatch, hdecr, ?_⟩
    by_cases hshort : o.bytes.length < 12
    · have hwhole := o.whole
      unfold optlenOf at hwhole
      exact Or.inr (longAt_completion o _ addr (by omega))
    · rw [(o.alike _).longAt (by omega), (o.alike _).longAt (by omega)]
      exact hlifetimes.resolve_left hshort
  · refine ⟨List.replicate 56 0, by simp, ?_⟩
    rw [optionFound_rdnss iface o _ hrdnss, rdnssMissing_ne_nil]
    exact hmissing

end Found

/-- An option is judged by itself exactly when nothing could be found in it, or it
    and all in front of it have the room they need without what follows. -/
theorem judgedAlone_iff (iface : Interface) (header : Vector UInt8 raHeaderLen)
    (before : List RaOption) (o : RaOption) :
    JudgedAlone iface header before o ↔
      ¬ CouldDiffer iface o.bytes ∨ Roomy 0 (before ++ [o]) := by
  constructor
  · rintro ⟨hsame, -⟩
    by_contra hboth
    rw [not_or, not_not] at hboth
    obtain ⟨hcould, hshort⟩ := hboth
    obtain ⟨rest, hlong, hfound⟩ := found_of_couldDiffer iface o hcould
    have hreached := (conclusions_eq iface header before o rest).1 (roomy_of_long hlong _)
    have hmissed := (conclusions_eq iface header before o []).2 hshort
    rw [hsame rest [], hmissed] at hreached
    exact hfound hreached.symm
  · rintro (hnever | hroomy)
    · have hnil : ∀ rest, optionFound iface (o.bytes ++ rest) = [] := by
        intro rest
        by_contra hfound
        exact hnever (couldDiffer_of_found iface o rest hfound)
      have hnone : ∀ rest, conclusions iface (message header before o rest) before.length = [] := by
        intro rest
        by_cases hroomy : Roomy rest.length (before ++ [o])
        · rw [(conclusions_eq iface header before o rest).1 hroomy, hnil]
        · exact (conclusions_eq iface header before o rest).2 hroomy
      refine ⟨fun rest rest' => ?_, fun hrdnss rest => ?_⟩
      · rw [hnone rest, hnone rest']
      · rw [hnone rest, ← optionFound_rdnss iface o rest hrdnss, hnil rest]
    · have hneed : o.need ≤ o.bytes.length := ((roomy_snoc 0 before o).mp hroomy).2
      have height := o.eight
      have hown : ∀ rest, conclusions iface (message header before o rest) before.length =
          optionFound iface o.bytes := by
        intro rest
        rw [(conclusions_eq iface header before o rest).1 (roomy_mono (Nat.zero_le _) hroomy)]
        apply (o.alike rest).optionFound iface height
        · intro hpre
          rw [o.byteAt_append rest (by omega)] at hpre
          rwa [RaOption.need, if_pos hpre] at hneed
        · intro _
          rw [o.optlenOf_append rest]
      refine ⟨fun rest rest' => ?_, fun hrdnss rest => ?_⟩
      · rw [hown rest, hown rest']
      · rw [hown rest, ← optionFound_rdnss iface o [] hrdnss, List.append_nil]

/-- One address, in an RDNSS option of twenty-four bytes. -/
def oneServer : RaOption where
  bytes := [ND_OPT_RDNSS_INFORMATION, 3, 0, 0, 0, 0, 2, 88] ++ List.replicate 16 1
  pos := by decide
  whole := by decide

/-- The address is not ours, which is said only when enough follows the option. -/
theorem oneServer_unjudged :
    ¬ JudgedAlone (bareInterface 1280) (Vector.replicate 16 0) [] oneServer := by
  rintro ⟨-, hfull⟩
  have hshort : ¬ Roomy 0 [oneServer] := fun hroomy => absurd hroomy.1 (by decide)
  have hmissed := (conclusions_eq (bareInterface 1280) (Vector.replicate 16 0) [] oneServer []).2 hshort
  exact absurd (hmissed.symm.trans (hfull (by decide) [])) (by decide)

end WanStack.Radvd
