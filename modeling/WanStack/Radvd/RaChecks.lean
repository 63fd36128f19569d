import WanStack.Radvd.Dnssl
import WanStack.Radvd.RaReads

set_option autoImplicit false

/-!
# What is said about a received advertisement

The mismatches that `process_ra` reports, over advertisements of whole options,
and the suffixes of their suffix lists.
-/
namespace WanStack.Radvd
open Aftr (Buf byteAt bytesAt shortAt)
open Lib.Walk

/-- An option as long as its length byte says. -/
structure RaOption where
  bytes : Buf
  pos : 0 < bytes.length
  whole : optlenOf bytes = bytes.length

def flatOptions (options : List RaOption) : Buf := (options.map RaOption.bytes).flatten

structure RouterAdvert where
  header : Vector UInt8 raHeaderLen
  options : List RaOption

def RouterAdvert.bytes (ra : RouterAdvert) : Buf := ra.header.toList ++ flatOptions ra.options

theorem RaOption.eight (o : RaOption) : 8 ≤ o.bytes.length := by
  have hpos := o.pos
  have hwhole := o.whole
  unfold optlenOf at hwhole
  omega

theorem RaOption.ne_nil (o : RaOption) : o.bytes ≠ [] := List.ne_nil_of_length_pos o.pos

/-! ### Mismatches -/

/-- The reports that something is not as we have it. -/
def mismatches (acts : List (Act Report)) : List Report :=
  (acts.filterMap Act.said).filter fun r => r.Mismatch

section Mismatches
variable (iface : Interface) (opt : Buf)

@[simp] theorem mismatches_nil : mismatches [] = [] := rfl

@[simp] theorem mismatches_append (acts more : List (Act Report)) :
    mismatches (acts ++ more) = mismatches acts ++ mismatches more := by
  simp [mismatches]

@[simp] theorem mismatches_read (off n left : ℕ) (acts : List (Act Report)) :
    mismatches (.read off n left :: acts) = mismatches acts := rfl

@[simp] theorem mismatches_label (off n stop left : ℕ) (acts : List (Act Report)) :
    mismatches (.label off n stop left :: acts) = mismatches acts := rfl

@[simp] theorem mismatches_stuck (acts : List (Act Report)) :
    mismatches (.stuck :: acts) = mismatches acts := rfl

@[simp] theorem mismatches_emit (r : Report) (acts : List (Act Report)) :
    mismatches (.emit r :: acts) = if r.Mismatch then r :: mismatches acts else mismatches acts := by
  change List.filter _ (r :: acts.filterMap Act.said) = _
  rw [List.filter_cons]
  simp [mismatches]

@[simp] theorem mismatches_reportIf (c : Bool) (r : Report) :
    mismatches (reportIf c r) = if c = true ∧ r.Mismatch then [r] else [] := by
  unfold reportIf
  cases c with
  | false => simp
  | true => simp

theorem mismatches_flatMap {α : Type} (f : α → List (Act Report)) (xs : List α) :
    mismatches (xs.flatMap f) = xs.flatMap fun x => mismatches (f x) := by
  induction xs with
  | nil => rfl
  | cons x xs ih => rw [List.flatMap_cons, mismatches_append, ih, List.flatMap_cons]

theorem mem_mismatches {r : Report} (h : r.Mismatch) (acts : List (Act Report)) :
    r ∈ mismatches acts ↔ .emit r ∈ acts := by
  unfold mismatches
  rw [List.mem_filter, List.mem_filterMap]
  constructor
  · rintro ⟨⟨a, ha, hsaid⟩, -⟩
    cases a with
    | emit r' =>
      obtain rfl := Option.some.inj hsaid
      exact ha
    | _ => exact absurd hsaid (by simp [Act.said])
  · intro hemit
    exact ⟨⟨_, hemit, rfl⟩, by simpa using h⟩

theorem mismatches_raMtu (h : 8 ≤ opt.length) : mismatches (raMtu iface opt).1 =
    if iface.AdvLinkMTU ≠ 0 ∧ longAt opt 4 ≠ iface.AdvLinkMTU.toNat then [.linkMTU] else [] := by
  rw [raMtu, if_neg (Nat.not_lt.mpr h)]
  simp [Report.Mismatch]

/-- A prefix of ours that an option announces with other lifetimes. -/
def prefixFound (opt : Buf) (p : AdvPrefix) : List Report :=
  if p.PrefixLen = byteAt opt 2 ∧ addrMatch p.Prefix (addrAt opt 16) p.PrefixLen.toNat ∧
      p.DecrementLifetimesFlag = false then
    (if longAt opt 4 ≠ p.AdvValidLifetime.toNat then [.validLifetime p.Prefix] else []) ++
      if longAt opt 8 ≠ p.AdvPreferredLifetime.toNat then [.preferredLifetime p.Prefix] else []
  else []

theorem mismatches_raPrefixActs (p : AdvPrefix) :
    mismatches (raPrefixActs opt p) = prefixFound opt p := by
  unfold raPrefixActs prefixFound
  by_cases hlen : p.PrefixLen = byteAt opt 2
  · by_cases hmatch : addrMatch p.Prefix (addrAt opt 16) p.PrefixLen.toNat = true
    · cases hdecr : p.DecrementLifetimesFlag with
      | false => simp [hlen, hlen ▸ hmatch, Report.Mismatch]
      | true => simp [hlen, hlen ▸ hmatch]
    · simp [hlen, hlen ▸ hmatch]
  · simp [hlen]

theorem mismatches_raPrefix (h : 32 ≤ opt.length) :
    mismatches (raPrefix iface opt).1 = iface.AdvPrefixList.flatMap (prefixFound opt) := by
  rw [raPrefix, if_neg (Nat.not_lt.mpr h)]
  simp only [mismatches_append, mismatches_read, mismatches_nil, mismatches_flatMap,
    mismatches_raPrefixActs, List.nil_append]

/-- The addresses of an RDNSS option, in the order of the checks. -/
def rdnssAddrs (opt : Buf) : List In6Addr :=
  let count := (byteAt opt 1).toNat
  if count = 7 then [addrAt opt 40, addrAt opt 24, addrAt opt 8]
  else if count = 5 then [addrAt opt 24, addrAt opt 8]
  else if count = 3 then [addrAt opt 8] else []

def rdnssFound (iface : Interface) (addr : In6Addr) : List Report :=
  if checkRdnssPresence iface.AdvRDNSSList addr then [] else [.rdnss addr]

theorem mismatches_raRdnssAddr (off : ℕ) :
    mismatches (raRdnssAddr iface opt off) = rdnssFound iface (addrAt opt off) := by
  unfold raRdnssAddr rdnssFound
  cases checkRdnssPresence iface.AdvRDNSSList (addrAt opt off) with
  | false => simp [Report.Mismatch]
  | true => simp

theorem mismatches_raRdnss (h : 56 ≤ opt.length) :
    mismatches (raRdnss iface opt).1 = (rdnssAddrs opt).flatMap (rdnssFound iface) := by
  rw [raRdnss, if_neg (Nat.not_lt.mpr h)]
  unfold rdnssAddrs
  dsimp only
  rw [mismatches_read]
  split_ifs
  · simp [mismatches_raRdnssAddr]
  · simp [mismatches_raRdnssAddr]
  · simp [mismatches_raRdnssAddr]
  · simp [Report.Mismatch]

/-- The suffix of the loop is empty in every round, so that none is compared. -/
theorem mismatches_raDnsslLoop (limit k offset : ℕ) :
    mismatches (raDnsslLoop iface opt limit k offset).1 = [] := by
  induction k generalizing offset with
  | zero =>
    unfold raDnsslLoop
    split
    · rfl
    · rfl
  | succ k ih =>
    rw [raDnsslLoop]
    by_cases hdone : limit ≤ offset
    · rw [if_pos hdone]
      rfl
    rw [if_neg hdone]
    by_cases hleft : opt.length ≤ 8 + offset
    · simp [hleft]
    by_cases hzero : (byteAt opt (8 + offset)).toNat = 0
    · simpa [hleft, hzero, Outcome.after] using ih (offset + 1)
    simp only [hleft, hzero, if_false]
    by_cases hover : 256 - ([] : Buf).length < (byteAt opt (8 + offset)).toNat + 2 ∨
        opt.length ≤ 8 + (offset + 1) + (byteAt opt (8 + offset)).toNat
    · rw [if_pos hover]
      simp [Report.Mismatch]
    · rw [if_neg hover]
      simpa [Outcome.after] using ih (offset + 1 + (byteAt opt (8 + offset)).toNat)

theorem mismatches_raDnssl : mismatches (raDnssl iface opt).1 = [] := by
  unfold raDnssl
  split
  · rfl
  · simp [Outcome.after, mismatches_raDnsslLoop]

/-- What is found in an option by its type. -/
def optionFound (iface : Interface) (opt : Buf) : List Report :=
  if byteAt opt 0 = ND_OPT_MTU then
    if iface.AdvLinkMTU ≠ 0 ∧ longAt opt 4 ≠ iface.AdvLinkMTU.toNat then [.linkMTU] else []
  else if byteAt opt 0 = ND_OPT_PREFIX_INFORMATION then
    iface.AdvPrefixList.flatMap (prefixFound opt)
  else if byteAt opt 0 = ND_OPT_RDNSS_INFORMATION then
    (rdnssAddrs opt).flatMap (rdnssFound iface)
  else []

variable {opt}

theorem mismatches_raOption (h : Announced opt) :
    mismatches (raOption iface opt).1 = if RaReturns opt then [] else optionFound iface opt := by
  by_cases hmtu : byteAt opt 0 = ND_OPT_MTU
  · have hswitch : raOption iface opt = raMtu iface opt := if_pos hmtu
    have hstays : ¬ RaReturns opt := by
      simp [RaReturns, hmtu, ND_OPT_MTU, ND_OPT_PREFIX_INFORMATION, ND_OPT_RDNSS_INFORMATION]
    rw [hswitch, mismatches_raMtu iface opt h.eight, if_neg hstays, optionFound, if_pos hmtu]
  by_cases hpre : byteAt opt 0 = ND_OPT_PREFIX_INFORMATION
  · have hswitch : raOption iface opt = raPrefix iface opt := by
      unfold raOption
      rw [hpre]
      rfl
    have hreturns : RaReturns opt ↔ opt.length < 32 := by
      simp [RaReturns, hpre, ND_OPT_PREFIX_INFORMATION, ND_OPT_RDNSS_INFORMATION]
    rw [hswitch, optionFound, if_neg hmtu, if_pos hpre]
    by_cases hlen : opt.length < 32
    · rw [if_pos (hreturns.mpr hlen), raPrefix, if_pos hlen]
      rfl
    · rw [if_neg (mt hreturns.mp hlen), mismatches_raPrefix iface opt (Nat.not_lt.mp hlen)]
  by_cases hrdnss : byteAt opt 0 = ND_OPT_RDNSS_INFORMATION
  · have hswitch : raOption iface opt = raRdnss iface opt := by
      unfold raOption
      rw [hrdnss]
      rfl
    have hreturns : RaReturns opt ↔ opt.length < 56 := by
      simp [RaReturns, hrdnss, ND_OPT_PREFIX_INFORMATION, ND_OPT_RDNSS_INFORMATION]
    rw [hswitch, optionFound, if_neg hmtu, if_neg hpre, if_pos hrdnss]
    by_cases hlen : opt.length < 56
    · rw [if_pos (hreturns.mpr hlen), raRdnss, if_pos hlen]
      rfl
    · rw [if_neg (mt hreturns.mp hlen), mismatches_raRdnss iface opt (Nat.not_lt.mp hlen)]
  · rw [optionFound, if_neg hmtu, if_neg hpre, if_neg hrdnss, ite_self]
    unfold raOption
    simp only [hmtu, hpre, hrdnss, if_false]
    split_ifs
    · rfl
    · rfl
    · rfl
    · rfl
    · exact mismatches_raDnssl iface opt
    · rfl

/-- What a round of the loop over the options reports as a mismatch. -/
theorem mismatches_raRound (opt : Buf) : mismatches (raRound iface opt).1 =
    if Announced opt ∧ ¬ RaReturns opt then optionFound iface opt else [] := by
  by_cases h : Announced opt
  · rw [raRound_announced iface h, mismatches_read, mismatches_read, mismatches_raOption iface h]
    by_cases hret : RaReturns opt
    · simp [hret]
    · simp [h, hret]
  · rw [if_neg (fun hboth => h hboth.1)]
    unfold Announced at h
    unfold raRound
    by_cases htwo : opt.length < 2
    · rw [if_pos htwo]
      rfl
    rw [if_neg htwo]
    by_cases hzero : optlenOf opt = 0
    · rw [if_pos hzero]
      rfl
    · rw [if_neg hzero, if_pos (by omega)]
      rfl

end Mismatches

/-! ### Suffixes -/

/-- An option that carries names, and `s` is one of them. -/
def CarriesSuffix (opt s : Buf) : Prop :=
  byteAt opt 0 = ND_OPT_DNSSL_INFORMATION ∧
    ∃ suffixes names m, List.Forall₂ IsName suffixes names ∧
      opt.drop 8 = (names.map encodeName).flatten ++ List.replicate m 0 ∧ s ∈ suffixes

/-- The suffixes that are reported are those that are carried and not ours. -/
def ComparesSuffixes (iface : Interface) (ra : RouterAdvert) : Prop :=
  ∃ acts, processRa iface ra.bytes = some acts ∧
    ∀ s, .emit (.dnssl s) ∈ acts ↔
      (∃ o ∈ ra.options, CarriesSuffix o.bytes s) ∧ checkDnsslPresence iface.AdvDNSSLList s = false

theorem dnssl_notin_optionFound (iface : Interface) (opt s : Buf) :
    .dnssl s ∉ optionFound iface opt := by
  unfold optionFound
  split_ifs
  · simp
  · simp
  · simp only [List.mem_flatMap, not_exists, not_and]
    intro p _
    unfold prefixFound
    split_ifs <;> simp
  · simp only [List.mem_flatMap, not_exists, not_and]
    intro addr _
    unfold rdnssFound
    split_ifs <;> simp
  · simp

theorem mismatch_dnssl (s : Buf) : (Report.dnssl s).Mismatch := trivial

theorem dnssl_notin_header (iface : Interface) (msg s : Buf) :
    .emit (.dnssl s) ∉ raHeaderActs iface msg := by
  rw [← mem_mismatches (mismatch_dnssl s)]
  simp [raHeaderActs]

/-- No suffix is ever reported. -/
theorem dnssl_notin_processRa (iface : Interface) (msg s : Buf) {acts : List (Act Report)}
    (h : processRa iface msg = some acts) : .emit (.dnssl s) ∉ acts := by
  rw [processRa_eq] at h
  obtain rfl := Option.some.inj h
  rw [List.mem_append, not_or]
  refine ⟨dnssl_notin_header iface msg s, ?_⟩
  rw [← mem_mismatches (mismatch_dnssl s), mismatches_flatMap]
  simp only [List.mem_flatMap, not_exists, not_and, mismatches_raRound]
  intro opt _
  split
  · exact dnssl_notin_optionFound iface opt s
  · exact List.not_mem_nil

/-- The suffixes are compared as they should be exactly when there is nothing to
    report. -/
theorem comparesSuffixes_iff (iface : Interface) (ra : RouterAdvert) :
    ComparesSuffixes iface ra ↔ ∀ o ∈ ra.options, ∀ s, CarriesSuffix o.bytes s →
      checkDnsslPresence iface.AdvDNSSLList s = true := by
  constructor
  · rintro ⟨acts, hacts, hiff⟩ o ho s hs
    have hsilent := dnssl_notin_processRa iface ra.bytes s hacts
    rw [hiff, not_and] at hsilent
    simpa using hsilent ⟨o, ho, hs⟩
  · intro hours
    refine ⟨_, processRa_eq iface ra.bytes, fun s => ?_⟩
    have hsilent := dnssl_notin_processRa iface ra.bytes s (processRa_eq iface ra.bytes)
    refine iff_of_false hsilent ?_
    rintro ⟨⟨o, ho, hs⟩, hforeign⟩
    rw [hours o ho s hs] at hforeign
    exact absurd hforeign (by decide)

/-- `lan`, in an option of sixteen bytes. -/
def lanOption : RaOption where
  bytes := [ND_OPT_DNSSL_INFORMATION, 2, 0, 0, 0, 0, 2, 88, 3, 108, 97, 110, 0, 0, 0, 0]
  pos := by decide
  whole := by decide

/-- Nothing is configured, and nothing is reported. -/
theorem lan_unreported :
    ¬ ComparesSuffixes (bareInterface 1280) ⟨Vector.replicate 16 0, [lanOption]⟩ := by
  rintro ⟨acts, hacts, hiff⟩
  apply dnssl_notin_processRa _ _ [108, 97, 110] hacts
  rw [hiff]
  refine ⟨⟨lanOption, by simp, by decide, [[108, 97, 110]], [[[108, 97, 110]]], 3, ?_, by decide, by simp⟩,
    by decide⟩
  refine .cons ⟨by simp, ?_, rfl⟩ .nil
  have hlan : ValidLabel [108, 97, 110] := ⟨by decide, by decide, by decide, by decide⟩
  simpa using hlan

end WanStack.Radvd
