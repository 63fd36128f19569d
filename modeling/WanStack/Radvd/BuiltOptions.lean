import Mathlib.Data.List.Perm.Basic
import WanStack.Lib.PartialRun
import WanStack.Radvd.OptionValues
import WanStack.Radvd.SendRa

set_option autoImplicit false

/-!
# The configuration in the options

What `build_ra_options` builds is read option by option and compared with the
configuration of the interface.
-/
namespace WanStack.Radvd
open Aftr (Buf byteAt bytesAt shortAt)

/-! ### What is due -/

/-- Home agent information is left out where it says what the header says. -/
def homeAgentDue (iface : Interface) : Bool :=
  iface.mipv6.AdvHomeAgentInfo && (iface.mipv6.AdvMobRtrSupportFlag || iface.mipv6.HomeAgentPreference != 0 ||
    iface.mipv6.HomeAgentLifetime != iface.ra_header_info.AdvDefaultLifetime)

/-- What is due to be advertised besides contexts and border routers. -/
def duePlain (sys : Sys) (iface : Interface) : List OptionValue :=
  (iface.AdvPrefixList.flatMap (advertised sys iface)).map (prefixValue iface.cease_adv) ++
  iface.AdvRouteList.map (routeValue iface.cease_adv) ++
  iface.AdvRDNSSList.map (rdnssValue iface.cease_adv) ++
  iface.AdvDNSSLList.map (dnsslValue iface.cease_adv) ++
  (if iface.AdvLinkMTU ≠ 0 then [.mtu iface.AdvLinkMTU.toNat] else []) ++
  (if iface.AdvSourceLLAddress && 0 < iface.sllao.if_hwaddr_len then [sllaoValue iface.sllao] else []) ++
  (if iface.mipv6.AdvIntervalOpt then [.rtrAdvInterval (advInterval iface.MaxRtrAdvInterval)] else []) ++
  (if homeAgentDue iface then [homeAgentValue iface.mipv6] else [])

/-- All that is due to be advertised. -/
def dueOptions (sys : Sys) (iface : Interface) : List OptionValue :=
  duePlain sys iface ++ (iface.AdvLowpanCoList.map lowpancoValue ++ iface.AdvAbroList.map abroValue)

/-- The options of a list of buffers; the root may be empty. -/
def optionsIn (sbl : List Buf) : List Buf := sbl.filter fun o => !o.isEmpty

/-- The options that are built say what is configured, each thing once. -/
def CarriesConfig (sys : Sys) (iface : Interface) : Prop :=
  ∃ sbl values, buildRaOptions sys iface = some sbl ∧
    List.Forall₂ (fun o v => decodeOption o = some v) (optionsIn sbl) values ∧
    values.Perm (dueOptions sys iface)

/-! ### The options that are built -/

theorem optionsIn_append {sbl : List Buf} (h : Listed sbl) {o : Buf} (ho : 0 < o.length) :
    optionsIn (appendOption sbl o) = optionsIn sbl ++ [o] := by
  have hne : o.isEmpty = false := by
    cases o with
    | nil => cases ho
    | cons x o => rfl
  unfold appendOption appendToTail safeBufferListAppend
  rcases h with rfl | ⟨hsbl, hall⟩
  · simp [optionsIn, hne]
  · have hlast : 0 < (sbl.getLastD []).length := by
      rw [List.getLastD_eq_getLast?, List.getLast?_eq_getLast_of_ne_nil hsbl]
      exact (hall _ (List.getLast_mem hsbl)).1
    rw [if_pos hlast, List.dropLast_concat, List.getLastD_concat, List.nil_append, optionsIn, List.filter_append]
    simp [optionsIn, hne]

/-- One option for each entry of a list. -/
theorem optionsIn_foldl {α : Type} (enc : α → Buf) (henc : ∀ x, 0 < (enc x).length ∧ (enc x).length ≤ 2040) (xs : List α)
    {sbl : List Buf} (h : Listed sbl) :
    optionsIn (xs.foldl (fun sbl x => appendOption sbl (enc x)) sbl) = optionsIn sbl ++ xs.map enc := by
  induction xs generalizing sbl with
  | nil => simp
  | cons x xs ih =>
    rw [List.foldl_cons, ih (h.appendOption (henc x).1 (henc x).2), optionsIn_append h (henc x).1, List.map_cons,
      List.append_assoc]
    rfl

theorem optionsIn_dnssl (iface : Interface) {sbl : List Buf} (h : Listed sbl) :
    (addRaOptionsDnssl iface sbl).map optionsIn =
      (iface.AdvDNSSLList.mapM fun d => dnsslOption d iface.cease_adv).map (optionsIn sbl ++ ·) := by
  unfold addRaOptionsDnssl
  generalize iface.AdvDNSSLList = dnssls
  induction dnssls generalizing sbl with
  | nil => simp
  | cons d dnssls ih =>
    rw [List.foldlM_cons, List.mapM_cons]
    simp only [scheduleOption, Bool.not_true, Bool.and_false, Bool.false_eq_true, if_false] at ih ⊢
    cases ho : dnsslOption d iface.cease_adv with
    | none => rfl
    | some o =>
      have hlen := length_dnsslOption ho
      have hpos : 0 < o.length := by omega
      change Option.map optionsIn (List.foldlM (fun sbl d => (dnsslOption d iface.cease_adv).map (appendOption sbl))
        (appendOption sbl o) dnssls) = _
      rw [ih (h.appendOption hpos hlen.2), optionsIn_append h hpos]
      cases dnssls.mapM fun d => dnsslOption d iface.cease_adv with
      | none => rfl
      | some os => exact congrArg some (List.append_assoc _ _ _)

/-- The options besides contexts and border routers, with given search lists. -/
def emittedPlain (sys : Sys) (iface : Interface) (dnssls : List Buf) : List Buf :=
  (iface.AdvPrefixList.flatMap (advertised sys iface)).map (fun p => addRaOptionPrefix p iface.cease_adv) ++
  iface.AdvRouteList.map (fun route => routeOption route iface.cease_adv) ++
  iface.AdvRDNSSList.map (fun rdnss => rdnssOption rdnss iface.cease_adv) ++ dnssls ++
  (if iface.AdvLinkMTU ≠ 0 then [addRaOptionMtu iface.AdvLinkMTU] else []) ++
  (if iface.AdvSourceLLAddress && 0 < iface.sllao.if_hwaddr_len then [addRaOptionSllao iface.sllao] else []) ++
  (if iface.mipv6.AdvIntervalOpt then [addRaOptionMipv6RtrAdvInterval iface.MaxRtrAdvInterval] else []) ++
  (if homeAgentDue iface then [addRaOptionMipv6HomeAgentInfo iface.mipv6] else [])

/-- All options: of contexts and of border routers there is one at most. -/
def emitted (sys : Sys) (iface : Interface) (dnssls : List Buf) : List Buf :=
  emittedPlain sys iface dnssls ++ ((iface.AdvLowpanCoList.head?.map addRaOptionLowpanco).toList ++
    (iface.AdvAbroList.head?.map addRaOptionAbro).toList)

theorem emitted_eq (sys : Sys) (iface : Interface) (dnssls : List Buf) : emitted sys iface dnssls =
    (iface.AdvPrefixList.flatMap (advertised sys iface)).map (fun p => addRaOptionPrefix p iface.cease_adv) ++
      iface.AdvRouteList.map (fun route => routeOption route iface.cease_adv) ++
      iface.AdvRDNSSList.map (fun rdnss => rdnssOption rdnss iface.cease_adv) ++ dnssls ++ singleOptions iface := by
  simp [emitted, emittedPlain, singleOptions, homeAgentDue, scheduleOption]

theorem optionsIn_single (iface : Interface) : optionsIn (singleOptions iface) = singleOptions iface := by
  apply List.filter_eq_self.mpr
  intro o ho
  have hpos := (singleOptions_length iface o ho).1
  cases o with
  | nil => exact absurd hpos (Nat.lt_irrefl 0)
  | cons x o => rfl

theorem optionsIn_prefix (sys : Sys) (iface : Interface) {sbl : List Buf} (h : Listed sbl) :
    optionsIn (addRaOptionsPrefix sys iface sbl) = optionsIn sbl ++
      (iface.AdvPrefixList.flatMap (advertised sys iface)).map fun p => addRaOptionPrefix p iface.cease_adv := by
  simp only [addRaOptionsPrefix, scheduleOption, Bool.or_true, if_true]
  apply optionsIn_foldl (fun p => addRaOptionPrefix p iface.cease_adv) _ _ h
  intro p
  rw [length_addRaOptionPrefix]
  omega

theorem optionsIn_route (iface : Interface) {sbl : List Buf} (h : Listed sbl) :
    optionsIn (addRaOptionsRoute iface sbl) = optionsIn sbl ++
      iface.AdvRouteList.map fun route => routeOption route iface.cease_adv := by
  simp only [addRaOptionsRoute, scheduleOption, Bool.not_true, Bool.and_false, Bool.false_eq_true, if_false]
  apply optionsIn_foldl (fun route => routeOption route iface.cease_adv) _ _ h
  intro route
  rw [length_routeOption]
  omega

theorem optionsIn_rdnss (iface : Interface) {sbl : List Buf} (h : Listed sbl) :
    optionsIn (addRaOptionsRdnss iface sbl) = optionsIn sbl ++
      iface.AdvRDNSSList.map fun rdnss => rdnssOption rdnss iface.cease_adv := by
  simp only [addRaOptionsRdnss, scheduleOption, Bool.not_true, Bool.and_false, Bool.false_eq_true, if_false]
  apply optionsIn_foldl (fun rdnss => rdnssOption rdnss iface.cease_adv) _ _ h
  intro rdnss
  have hle := rdnss.number_le
  rw [length_rdnssOption]
  omega

theorem optionsIn_build (sys : Sys) (iface : Interface) :
    (buildRaOptions sys iface).map optionsIn =
      (iface.AdvDNSSLList.mapM fun d => dnsslOption d iface.cease_adv).map (emitted sys iface) := by
  have hroot : Listed [[]] := Or.inl rfl
  have hprefix := hroot.prefixes sys iface
  have hroute := hprefix.routes iface
  have hrdnss := hroute.rdnss iface
  have hlists : optionsIn (addRaOptionsRdnss iface (addRaOptionsRoute iface (addRaOptionsPrefix sys iface [[]]))) =
      (iface.AdvPrefixList.flatMap (advertised sys iface)).map (fun p => addRaOptionPrefix p iface.cease_adv) ++
      iface.AdvRouteList.map (fun route => routeOption route iface.cease_adv) ++
      iface.AdvRDNSSList.map (fun rdnss => rdnssOption rdnss iface.cease_adv) := by
    rw [optionsIn_rdnss iface hroute, optionsIn_route iface hprefix, optionsIn_prefix sys iface hroot]
    rfl
  have hsingle : ∀ sbl : List Buf, optionsIn (sbl ++ singleOptions iface) = optionsIn sbl ++ singleOptions iface := by
    intro sbl
    rw [← optionsIn_single iface, optionsIn, List.filter_append]
    simp [optionsIn]
  have hdnssl := optionsIn_dnssl iface hrdnss
  rw [hlists] at hdnssl
  rw [buildRaOptions, Option.map_map]
  have hcomp : optionsIn ∘ (fun sbl => sbl ++ singleOptions iface) = (fun os => os ++ singleOptions iface) ∘ optionsIn :=
    funext hsingle
  rw [hcomp, ← Option.map_map, hdnssl, Option.map_map]
  exact congrArg (fun f => Option.map f _) (funext fun dnssls => (emitted_eq sys iface dnssls).symm)

/-! ### Options and values, type by type -/

/-- A value is read from each option. -/
abbrev Decodes (os : List Buf) (vs : List OptionValue) : Prop := List.Forall₂ (fun o v => decodeOption o = some v) os vs

theorem Decodes.append {os os' : List Buf} {vs vs' : List OptionValue} (h : Decodes os vs) (h' : Decodes os' vs') :
    Decodes (os ++ os') (vs ++ vs') :=
  List.rel_append h h'

theorem decodes_map {α : Type} {enc : α → Buf} {value : α → OptionValue} (xs : List α)
    (h : ∀ x ∈ xs, decodeOption (enc x) = some (value x)) : Decodes (xs.map enc) (xs.map value) := by
  rw [Decodes, List.forall₂_map_left_iff, List.forall₂_map_right_iff, List.forall₂_same]
  exact h

theorem decodes_if {c : Prop} [Decidable c] {o : Buf} {v : OptionValue} (h : c → decodeOption o = some v) :
    Decodes (if c then [o] else []) (if c then [v] else []) := by
  by_cases hc : c
  · rw [if_pos hc, if_pos hc]
    exact .cons (h hc) .nil
  · rw [if_neg hc, if_neg hc]
    exact .nil

/-- The options and the values of one type. -/
theorem Decodes.ofType {os : List Buf} {vs : List OptionValue} (h : Decodes os vs) (type : UInt8) :
    Decodes (os.filter fun o => byteAt o 0 = type) (vs.filter fun v => v.type = type) := by
  refine List.rel_filter ?_ h
  intro o v hv
  simp only [decide_eq_true_eq, (decode_readable hv).2]

theorem Decodes.mem {os : List Buf} {vs : List OptionValue} (h : Decodes os vs) {v : OptionValue} (hv : v ∈ vs) :
    ∃ o ∈ os, decodeOption o = some v := by
  induction h with
  | nil => cases hv
  | cons hfirst _ ih =>
    obtain rfl | hv := List.mem_cons.mp hv
    · exact ⟨_, List.mem_cons_self, hfirst⟩
    · obtain ⟨o, ho, hdecode⟩ := ih hv
      exact ⟨o, List.mem_cons_of_mem _ ho, hdecode⟩

/-- Contexts and border routers have types of their own. -/
def Plain (type : UInt8) : Prop := type ≠ ND_OPT_6CO ∧ type ≠ ND_OPT_ABRO

theorem mem_if {α : Type} {c : Prop} [Decidable c] {x y : α} (h : y ∈ (if c then [x] else [])) : c ∧ y = x := by
  by_cases hc : c
  · rw [if_pos hc] at h
    exact ⟨hc, List.mem_singleton.mp h⟩
  · rw [if_neg hc] at h
    cases h

instance (type : UInt8) : Decidable (Plain type) := inferInstanceAs (Decidable (_ ∧ _))

theorem plain_types : ∀ type ∈ [ND_OPT_PREFIX_INFORMATION, ND_OPT_ROUTE_INFORMATION, ND_OPT_RDNSS_INFORMATION,
    ND_OPT_DNSSL_INFORMATION, ND_OPT_MTU, ND_OPT_SOURCE_LINKADDR, ND_OPT_RTR_ADV_INTERVAL, ND_OPT_HOME_AGENT_INFO],
    Plain type := by decide +kernel

theorem emittedPlain_type {sys : Sys} {iface : Interface} {dnssls : List Buf}
    (hdnssls : ∀ o ∈ dnssls, byteAt o 0 = ND_OPT_DNSSL_INFORMATION) {o : Buf} (ho : o ∈ emittedPlain sys iface dnssls) :
    Plain (byteAt o 0) := by
  simp only [emittedPlain, List.mem_append, List.mem_map] at ho
  obtain ((((((⟨p, -, rfl⟩ | ⟨route, -, rfl⟩) | ⟨rdnss, -, rfl⟩) | ho) | ho) | ho) | ho) | ho := ho
  · exact plain_types ND_OPT_PREFIX_INFORMATION (by decide)
  · exact plain_types ND_OPT_ROUTE_INFORMATION (by decide)
  · rw [rdnssOption_eq]
    exact plain_types ND_OPT_RDNSS_INFORMATION (by decide)
  · rw [hdnssls o ho]
    exact plain_types ND_OPT_DNSSL_INFORMATION (by decide)
  · rw [(mem_if ho).2]
    exact plain_types ND_OPT_MTU (by decide)
  · rw [(mem_if ho).2]
    exact plain_types ND_OPT_SOURCE_LINKADDR (by decide)
  · rw [(mem_if ho).2]
    exact plain_types ND_OPT_RTR_ADV_INTERVAL (by decide)
  · rw [(mem_if ho).2]
    exact plain_types ND_OPT_HOME_AGENT_INFO (by decide)

theorem duePlain_type {sys : Sys} {iface : Interface} {v : OptionValue} (hv : v ∈ duePlain sys iface) : Plain v.type := by
  simp only [duePlain, List.mem_append, List.mem_map] at hv
  obtain ((((((⟨p, -, rfl⟩ | ⟨route, -, rfl⟩) | ⟨rdnss, -, rfl⟩) | ⟨dnssl, -, rfl⟩) | hv) | hv) | hv) | hv := hv
  · exact plain_types ND_OPT_PREFIX_INFORMATION (by decide)
  · exact plain_types ND_OPT_ROUTE_INFORMATION (by decide)
  · exact plain_types ND_OPT_RDNSS_INFORMATION (by decide)
  · exact plain_types ND_OPT_DNSSL_INFORMATION (by decide)
  · rw [(mem_if hv).2]
    exact plain_types ND_OPT_MTU (by decide)
  · rw [(mem_if hv).2]
    exact plain_types ND_OPT_SOURCE_LINKADDR (by decide)
  · rw [(mem_if hv).2]
    exact plain_types ND_OPT_RTR_ADV_INTERVAL (by decide)
  · rw [(mem_if hv).2]
    exact plain_types ND_OPT_HOME_AGENT_INFO (by decide)

/-- What is left of the options when one of the two types is asked for. -/
theorem emitted_6co {sys : Sys} {iface : Interface} {dnssls : List Buf}
    (hdnssls : ∀ o ∈ dnssls, byteAt o 0 = ND_OPT_DNSSL_INFORMATION) :
    (emitted sys iface dnssls).filter (fun o => byteAt o 0 = ND_OPT_6CO) =
      (iface.AdvLowpanCoList.head?.map addRaOptionLowpanco).toList := by
  have hplain : (emittedPlain sys iface dnssls).filter (fun o => byteAt o 0 = ND_OPT_6CO) = [] := by
    apply List.filter_eq_nil_iff.mpr
    intro o ho
    simpa using (emittedPlain_type hdnssls ho).1
  rw [emitted, List.filter_append, hplain, List.filter_append]
  cases iface.AdvLowpanCoList <;> cases iface.AdvAbroList <;> rfl

theorem emitted_abro {sys : Sys} {iface : Interface} {dnssls : List Buf}
    (hdnssls : ∀ o ∈ dnssls, byteAt o 0 = ND_OPT_DNSSL_INFORMATION) :
    (emitted sys iface dnssls).filter (fun o => byteAt o 0 = ND_OPT_ABRO) =
      (iface.AdvAbroList.head?.map addRaOptionAbro).toList := by
  have hplain : (emittedPlain sys iface dnssls).filter (fun o => byteAt o 0 = ND_OPT_ABRO) = [] := by
    apply List.filter_eq_nil_iff.mpr
    intro o ho
    simpa using (emittedPlain_type hdnssls ho).2
  rw [emitted, List.filter_append, hplain, List.filter_append]
  cases iface.AdvLowpanCoList <;> cases iface.AdvAbroList <;> rfl

theorem filter_values {α : Type} {value : α → OptionValue} {type : UInt8} (h : ∀ x, (value x).type = type) (xs : List α)
    (asked : UInt8) :
    (xs.map value).filter (fun v => v.type = asked) = if type = asked then xs.map value else [] := by
  by_cases hsame : type = asked
  · rw [if_pos hsame]
    apply List.filter_eq_self.mpr
    intro v hv
    obtain ⟨x, -, rfl⟩ := List.mem_map.mp hv
    simp [h, hsame]
  · rw [if_neg hsame]
    apply List.filter_eq_nil_iff.mpr
    intro v hv
    obtain ⟨x, -, rfl⟩ := List.mem_map.mp hv
    simp [h, hsame]

theorem due_6co (sys : Sys) (iface : Interface) :
    (dueOptions sys iface).filter (fun v => v.type = ND_OPT_6CO) = iface.AdvLowpanCoList.map lowpancoValue := by
  have hplain : (duePlain sys iface).filter (fun v => v.type = ND_OPT_6CO) = [] := by
    apply List.filter_eq_nil_iff.mpr
    intro v hv
    simpa using (duePlain_type hv).1
  have hco : ∀ co, (lowpancoValue co).type = ND_OPT_6CO := fun _ => rfl
  have habro : ∀ abro, (abroValue abro).type = ND_OPT_ABRO := fun _ => rfl
  rw [dueOptions, List.filter_append, hplain, List.filter_append, filter_values hco, filter_values habro,
    if_pos rfl, if_neg (by decide), List.append_nil]
  rfl

theorem due_abro (sys : Sys) (iface : Interface) :
    (dueOptions sys iface).filter (fun v => v.type = ND_OPT_ABRO) = iface.AdvAbroList.map abroValue := by
  have hplain : (duePlain sys iface).filter (fun v => v.type = ND_OPT_ABRO) = [] := by
    apply List.filter_eq_nil_iff.mpr
    intro v hv
    simpa using (duePlain_type hv).2
  have hco : ∀ co, (lowpancoValue co).type = ND_OPT_6CO := fun _ => rfl
  have habro : ∀ abro, (abroValue abro).type = ND_OPT_ABRO := fun _ => rfl
  rw [dueOptions, List.filter_append, hplain, List.filter_append, filter_values hco, filter_values habro,
    if_neg (by decide), if_pos rfl]
  rfl

/-- One option at most is made of a list; it says what the list says exactly if the
    list is no longer, and its entry is read back. -/
theorem head_decodes_iff {α : Type} (enc : α → Buf) (value : α → OptionValue) (xs : List α) :
    (∃ vs, Decodes (xs.head?.map enc).toList vs ∧ vs.Perm (xs.map value)) ↔
      xs.length ≤ 1 ∧ ∀ x ∈ xs, decodeOption (enc x) = some (value x) := by
  constructor
  · rintro ⟨vs, hdecodes, hperm⟩
    have hlen := hperm.length_eq
    have hsame := hdecodes.length_eq
    cases xs with
    | nil => simp
    | cons x xs =>
      change Decodes [enc x] vs at hdecodes
      cases hdecodes with
      | @cons _ v _ vs hfirst hrest =>
        obtain rfl := List.forall₂_nil_left_iff.mp hrest
        have hnil : xs = [] := by
          apply List.length_eq_zero_iff.mp
          simpa using hlen.symm
        rw [hnil] at hperm ⊢
        have hvalue : [v] = [value x] := List.perm_singleton.mp hperm
        refine ⟨Nat.le_refl _, fun y hy => ?_⟩
        rw [List.mem_singleton.mp hy, hfirst, (List.cons.inj hvalue).1]
  · rintro ⟨hlen, hdecode⟩
    cases xs with
    | nil => exact ⟨[], .nil, .refl _⟩
    | cons x xs =>
      have hnil : xs = [] := by
        apply List.length_eq_zero_iff.mp
        simpa using hlen
      subst hnil
      exact ⟨[value x], .cons (hdecode x List.mem_cons_self) .nil, .refl _⟩

/-! ### When the configuration arrives -/

/-- Both bytes of a number are equal, so that their order is no matter. -/
def SameBytes (n : UInt16) : Prop := n.toNat / 256 = n.toNat % 256

/-- What an option of a context and one of a border router say right. -/
def CoPlain (co : AdvLowpanCo) : Prop :=
  co.ContextCompressionFlag = 0 ∧ co.AdvContextID = 0 ∧ SameBytes co.AdvLifeTime

def AbroPlain (abro : AdvAbro) : Prop :=
  SameBytes abro.Version.1 ∧ SameBytes abro.Version.2 ∧ SameBytes abro.ValidLifeTime

theorem sameBytes_iff (n : UInt16) : n.toNat % 256 * 256 + n.toNat / 256 = n.toNat ↔ SameBytes n := by
  have hlt := n.toNat_lt
  unfold SameBytes
  omega

theorem decode_lowpanco_iff (co : AdvLowpanCo) :
    decodeOption (addRaOptionLowpanco co) = some (lowpancoValue co) ↔ CoPlain co := by
  have hflag : co.ContextCompressionFlag = 0 ↔ co.ContextCompressionFlag.toNat = 0 := UInt8.toNat_inj.symm
  have hcid : co.AdvContextID = 0 ↔ co.AdvContextID.toNat = 0 := UInt8.toNat_inj.symm
  rw [decode_lowpanco, lowpancoValue, Option.some.injEq, OptionValue.lowpanco.injEq, sameBytes_iff, CoPlain,
    decide_eq_decide, Ne, hflag, hcid]
  constructor
  · rintro ⟨-, hodd, hvalue, hlife, -⟩
    refine ⟨?_, ?_, hlife⟩ <;> omega
  · rintro ⟨hzero, hid, hlife⟩
    refine ⟨rfl, ?_, ?_, hlife, rfl⟩ <;> omega

theorem decode_abro_iff (abro : AdvAbro) : decodeOption (addRaOptionAbro abro) = some (abroValue abro) ↔ AbroPlain abro := by
  rw [decode_abro, abroValue, Option.some.injEq, OptionValue.abro.injEq, sameBytes_iff, sameBytes_iff, sameBytes_iff, AbroPlain]
  constructor
  · rintro ⟨hlow, hhigh, hlife, -⟩
    exact ⟨hhigh, hlow, hlife⟩
  · rintro ⟨hhigh, hlow, hlife⟩
    exact ⟨hlow, hhigh, hlife, rfl⟩

theorem decode_route_of {route : AdvRoute} (cease_adv : Bool)
    (h : route.AdvRoutePreference = 0 ∨ route.AdvRoutePreference = 1 ∨ route.AdvRoutePreference = -1) :
    decodeOption (routeOption route cease_adv) = some (routeValue cease_adv route) := by
  have hpref : decodePreference (prfBits route.AdvRoutePreference) = some route.AdvRoutePreference := by
    obtain h | h | h := h
    all_goals
      rw [h]
      decide
  rw [decode_route, hpref]
  rfl

/-- What the fields of the options besides contexts and border routers can hold. -/
structure FieldsFit (iface : Interface) : Prop where
  routes : ∀ route ∈ iface.AdvRouteList,
    route.AdvRoutePreference = 0 ∨ route.AdvRoutePreference = 1 ∨ route.AdvRoutePreference = -1
  dnssls : ∀ dnssl ∈ iface.AdvDNSSLList, Sendable dnssl
  interval : iface.mipv6.AdvIntervalOpt = true → advInterval iface.MaxRtrAdvInterval < 4294967296
  homeAgent : homeAgentDue iface = true →
    0 ≤ iface.mipv6.HomeAgentLifetime ∧ iface.mipv6.HomeAgentLifetime < 65536

section Interface
variable {sys : Sys} {iface : Interface} {dnssls : List Buf}

theorem dnssls_type (h : iface.AdvDNSSLList.mapM (fun d => dnsslOption d iface.cease_adv) = some dnssls) :
    ∀ o ∈ dnssls, byteAt o 0 = ND_OPT_DNSSL_INFORMATION := by
  intro o ho
  obtain ⟨dnssl, -, hdnssl⟩ := (PartialRun.mapM_mem h).2 o ho
  exact (dnsslOption_head hdnssl).1

/-- Every search list that can be sent is. -/
theorem dnssls_decode (list : List AdvDNSSL) (cease_adv : Bool) (h : ∀ dnssl ∈ list, Sendable dnssl) :
    ∃ dnssls, list.mapM (fun d => dnsslOption d cease_adv) = some dnssls ∧
      Decodes dnssls (list.map (dnsslValue cease_adv)) := by
  induction list with
  | nil => exact ⟨[], rfl, .nil⟩
  | cons dnssl list ih =>
    obtain ⟨o, ho, hdecode⟩ := decode_dnssl (h dnssl List.mem_cons_self) cease_adv
    obtain ⟨dnssls, hall, hdecodes⟩ := ih fun d hd => h d (List.mem_cons_of_mem _ hd)
    refine ⟨o :: dnssls, ?_, .cons hdecode hdecodes⟩
    rw [List.mapM_cons, ho, hall]
    rfl

theorem decodes_plain (h : FieldsFit iface) (hdnssls : Decodes dnssls (iface.AdvDNSSLList.map (dnsslValue iface.cease_adv))) :
    Decodes (emittedPlain sys iface dnssls) (duePlain sys iface) := by
  have hprefixes := decodes_map (iface.AdvPrefixList.flatMap (advertised sys iface)) fun p _ =>
    decode_prefix iface.cease_adv p
  have hroutes := decodes_map iface.AdvRouteList fun route hroute =>
    decode_route_of iface.cease_adv (h.routes route hroute)
  have hrdnss := decodes_map iface.AdvRDNSSList fun rdnss _ => decode_rdnss iface.cease_adv rdnss
  apply Decodes.append
  · apply Decodes.append
    · apply Decodes.append
      · exact (((hprefixes.append hroutes).append hrdnss).append hdnssls).append (decodes_if fun _ => decode_mtu _)
      · exact decodes_if fun _ => decode_sllao _
    · apply decodes_if
      intro hon
      rw [decode_interval, Nat.mod_eq_of_lt (h.interval hon)]
  · apply decodes_if
    intro hon
    obtain ⟨hpos, hlt⟩ := h.homeAgent hon
    rw [decode_homeAgent, Int.emod_eq_of_lt hpos hlt]
    rfl

/-- A list that is written and has readable names is short enough. -/
theorem sendable_of {dnssl : AdvDNSSL} {cease_adv : Bool} {o : Buf} (ho : dnsslOption dnssl cease_adv = some o)
    (h : (dnsslValue cease_adv dnssl).Readable) : Sendable dnssl := by
  obtain ⟨names, hnames⟩ := h
  refine ⟨⟨names, hnames⟩, ?_⟩
  by_contra hlong
  have hnone := (@dnsslOption_named (trimmed dnssl) names hnames cease_adv).2 (Nat.lt_of_not_le hlong)
  rw [← @dnsslOption_trimmed dnssl names hnames, ho] at hnone
  cases hnone

theorem fieldsFit_of (hdnssls : iface.AdvDNSSLList.mapM (fun d => dnsslOption d iface.cease_adv) = some dnssls)
    (h : ∀ v ∈ duePlain sys iface, v.Readable) : FieldsFit iface := by
  have hsingle : ∀ {c : Prop} [Decidable c] (v : OptionValue), c → v ∈ (if c then [v] else []) := by
    intro c _ v hc
    rw [if_pos hc]
    exact List.mem_singleton_self v
  constructor
  · intro route hroute
    apply h (routeValue iface.cease_adv route)
    iterate 6 apply List.mem_append_left
    exact List.mem_append_right _ (List.mem_map_of_mem hroute)
  · intro dnssl hdnssl
    have hreadable : (dnsslValue iface.cease_adv dnssl).Readable := by
      apply h
      iterate 4 apply List.mem_append_left
      exact List.mem_append_right _ (List.mem_map_of_mem hdnssl)
    obtain ⟨o, ho⟩ := (PartialRun.mapM_mem hdnssls).1 dnssl hdnssl
    exact sendable_of ho hreadable
  · intro hon
    apply h (.rtrAdvInterval (advInterval iface.MaxRtrAdvInterval))
    exact List.mem_append_left _ (List.mem_append_right _ (hsingle _ hon))
  · intro hon
    exact h (homeAgentValue iface.mipv6) (List.mem_append_right _ (hsingle _ hon))

theorem lowpanco_decodes_iff (cos : List AdvLowpanCo) :
    (∃ vs, Decodes (cos.head?.map addRaOptionLowpanco).toList vs ∧ vs.Perm (cos.map lowpancoValue)) ↔
      cos.length ≤ 1 ∧ ∀ co ∈ cos, CoPlain co := by
  have hiff := head_decodes_iff addRaOptionLowpanco lowpancoValue cos
  simp only [decode_lowpanco_iff] at hiff
  exact hiff

theorem abro_decodes_iff (abros : List AdvAbro) :
    (∃ vs, Decodes (abros.head?.map addRaOptionAbro).toList vs ∧ vs.Perm (abros.map abroValue)) ↔
      abros.length ≤ 1 ∧ ∀ abro ∈ abros, AbroPlain abro := by
  have hiff := head_decodes_iff addRaOptionAbro abroValue abros
  simp only [decode_abro_iff] at hiff
  exact hiff

theorem of_carriesConfig (h : CarriesConfig sys iface) :
    FieldsFit iface ∧ (iface.AdvLowpanCoList.length ≤ 1 ∧ ∀ co ∈ iface.AdvLowpanCoList, CoPlain co) ∧
      iface.AdvAbroList.length ≤ 1 ∧ ∀ abro ∈ iface.AdvAbroList, AbroPlain abro := by
  obtain ⟨sbl, values, hsbl, hdecodes, hperm⟩ := h
  have hbuild := optionsIn_build sys iface
  rw [hsbl, Option.map_some] at hbuild
  obtain ⟨dnssls, hdnssls, hemitted⟩ := Option.map_eq_some_iff.mp hbuild.symm
  have htypes := dnssls_type hdnssls
  change Decodes (optionsIn sbl) values at hdecodes
  rw [← hemitted] at hdecodes
  have hreadable : ∀ v ∈ duePlain sys iface, v.Readable := by
    intro v hv
    have hmem : v ∈ values := hperm.mem_iff.mpr (List.mem_append_left _ hv)
    obtain ⟨o, -, ho⟩ := hdecodes.mem hmem
    exact (decode_readable ho).1
  have hco := hdecodes.ofType ND_OPT_6CO
  have habro := hdecodes.ofType ND_OPT_ABRO
  rw [emitted_6co htypes] at hco
  rw [emitted_abro htypes] at habro
  refine ⟨fieldsFit_of hdnssls hreadable, (lowpanco_decodes_iff _).mp ⟨_, hco, ?_⟩, (abro_decodes_iff _).mp ⟨_, habro, ?_⟩⟩
  · rw [← due_6co sys iface]
    exact hperm.filter _
  · rw [← due_abro sys iface]
    exact hperm.filter _

end Interface

/-- A context that lasts 1000 units, without compression. -/
def someContext : AdvLowpanCo where
  ContextLength := 50
  ContextCompressionFlag := 0
  AdvContextID := 0
  AdvLifeTime := 1000
  AdvContextPrefix := Vector.replicate 16 0

end WanStack.Radvd
