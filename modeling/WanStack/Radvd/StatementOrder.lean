import WanStack.Radvd.Statements
import Mathlib.Data.List.Perm.Basic

set_option autoImplicit false

/-!
# The order of the statements of a block

When every order of an interface's statements gives the same interface. Defaults and
bounds of the nested definitions are taken from the interval seen so far, which is 600
or the interval that the block sets, by where the definition stands.
-/
namespace WanStack.Radvd.Gram
open Aftr (Buf)

/-- An interface without its lists. -/
def bare (iface : IfaceConf) : IfaceConf :=
  { iface with
    AdvPrefixList := []
    ClientList := []
    AdvRouteList := []
    AdvRDNSSList := []
    AdvDNSSLList := []
    AdvLowpanCoList := []
    AdvAbroList := []
    AdvRASrcAddressList := [] }

structure SameUpToOrder (i j : IfaceConf) : Prop where
  rest : bare i = bare j
  AdvPrefixList : i.AdvPrefixList.Perm j.AdvPrefixList
  ClientList : i.ClientList.Perm j.ClientList
  AdvRouteList : i.AdvRouteList.Perm j.AdvRouteList
  AdvRDNSSList : i.AdvRDNSSList.Perm j.AdvRDNSSList
  AdvDNSSLList : i.AdvDNSSLList.Perm j.AdvDNSSLList
  AdvLowpanCoList : i.AdvLowpanCoList.Perm j.AdvLowpanCoList
  AdvAbroList : i.AdvAbroList.Perm j.AdvAbroList
  AdvRASrcAddressList : i.AdvRASrcAddressList.Perm j.AdvRASrcAddressList

/-- Two parses agree: both refuse, or the interfaces are the same up to the order of
    their lists. -/
def Agree : Option IfaceConf → Option IfaceConf → Prop
  | none, none => True
  | some i, some j => SameUpToOrder i j
  | _, _ => False

/-- 0, infinite or at least the interval. -/
def Lasting (MaxRtrAdvInterval : ℚ) (lifetime : UInt32) : Prop :=
  lifetime = 0 ∨ lifetime = 0xffffffff ∨ MaxRtrAdvInterval ≤ lifetime.toNat

structure LifetimesLast (iface : IfaceConf) : Prop where
  rdnss : ∀ r ∈ iface.AdvRDNSSList, Lasting iface.MaxRtrAdvInterval r.AdvRDNSSLifetime
  dnssl : ∀ d ∈ iface.AdvDNSSLList, Lasting iface.MaxRtrAdvInterval d.AdvDNSSLLifetime

/-- The order of the statements `B` does not matter, and the lifetimes are long enough. -/
structure OrderFree (name : Buf) (B : List Statement) : Prop where
  agree : ∀ B', B'.Perm B → Agree (ifaceRead (blockToks name B')) (ifaceRead (blockToks name B))
  last : ∀ iface, ifaceRead (blockToks name B) = some iface → LifetimesLast iface

/-! ### The condition -/

section Lifetime
variable {α : Type} {of : Token → Token → Option α}

/-- The last explicit lifetime of a definition. -/
def lastLifetime (lifetime : α → Option UInt32) : List (Setting α of) → Option UInt32
  | [] => none
  | s :: ss => (lastLifetime lifetime ss).or (lifetime s.parm)

end Lifetime

def RouteParm.lifetime : RouteParm → Option UInt32
  | .AdvRouteLifetime n => some n
  | _ => none

def RdnssParm.lifetime : RdnssParm → Option UInt32
  | .AdvRDNSSLifetime n => some n
  | _ => none

def DnsslParm.lifetime : DnsslParm → Option UInt32
  | .AdvDNSSLLifetime n => some n
  | _ => none

/-- The parser stops at the statement, wherever it stands. -/
def Statement.refused : Statement → Prop
  | .prefixdef a n body =>
    let p := applied prefixparms (body.getD []) { prefixInitDefaults with Prefix := a, PrefixLen := n.toUInt8 }
    MAX_PrefixLen < n.toNat ∨ p.AdvValidLifetime < p.AdvPreferredLifetime ∨ p.if6 ≠ [] ∧ p.PrefixLen ≠ 64
  | .routedef _ n _ => MAX_PrefixLen < n.toNat
  | .rdnssdef _ as _ => 2 < as.length
  | .dnssldef s ss _ => (s :: ss).all (·.all suffixChar) = false
  | _ => False

/-- The interval of the block so far, behind the statement. -/
def Statement.interval (MaxRtrAdvInterval : ℚ) : Statement → ℚ
  | .ifaceval s =>
    match s.parm with
    | .MaxRtrAdvInterval v => v
    | _ => MaxRtrAdvInterval
  | _ => MaxRtrAdvInterval

/-- The interval of the block: the last that it sets. -/
def intervalOf (B : List Statement) : ℚ := B.foldl Statement.interval IfaceConf.DFLT_MaxRtrAdvInterval

/-- Two settings of one keyword do the same. -/
def Agreeing (B : List Statement) : Prop :=
  ∀ s t, Statement.ifaceval s ∈ B → Statement.ifaceval t ∈ B → s.keyword = t.keyword →
    ifaceval s.parm ifaceInitDefaults = ifaceval t.parm ifaceInitDefaults

/-- The lifetimes of a definition do not hang on where it stands in a block of the
    interval `M`, and those of RDNSS and DNSSL are long enough for it. -/
def Statement.Steady (M : ℚ) : Statement → Prop
  | .routedef _ _ body => lastLifetime RouteParm.lifetime body ≠ none ∨ toU32 (3 * M) = 1800
  | .rdnssdef _ _ body =>
    match lastLifetime RdnssParm.lifetime body with
    | none => toU32 M = 600 ∧ M ≤ 600
    | some n => n = 0 ∨ n = 0xffffffff ∨ M ≤ n.toNat
  | .dnssldef _ _ body =>
    match lastLifetime DnsslParm.lifetime body with
    | none => toU32 M = 600 ∧ M ≤ 600
    | some n =>
      n = 0 ∨ 600 ≤ n.toNat ∧ M ≤ n.toNat ∨ n.toNat < 600 ∧ M = 600 ∨
        n = 0xffffffff ∧ toU32 M = 0xffffffff
  | _ => True

/-! ### Entries -/

def Entry.pfx? : Entry → Option AdvPrefix
  | .pfx p => some p
  | _ => none

def Entry.client? : Entry → Option In6Addr
  | .client a => some a
  | _ => none

def Entry.route? : Entry → Option AdvRoute
  | .route r => some r
  | _ => none

def Entry.rdnss? : Entry → Option AdvRDNSS
  | .rdnss r => some r
  | _ => none

def Entry.dnssl? : Entry → Option AdvDNSSL
  | .dnssl d => some d
  | _ => none

def Entry.lowpanco? : Entry → Option AdvLowpanCo
  | .lowpanco l => some l
  | _ => none

def Entry.abro? : Entry → Option AdvAbro
  | .abro a => some a
  | _ => none

def Entry.rasrc? : Entry → Option In6Addr
  | .rasrc a => some a
  | _ => none

theorem foldl_add (es : List Entry) (iface : IfaceConf) :
    es.foldl add iface =
      { iface with
        AdvPrefixList := iface.AdvPrefixList ++ es.filterMap Entry.pfx?
        ClientList := iface.ClientList ++ es.filterMap Entry.client?
        AdvRouteList := iface.AdvRouteList ++ es.filterMap Entry.route?
        AdvRDNSSList := iface.AdvRDNSSList ++ es.filterMap Entry.rdnss?
        AdvDNSSLList := iface.AdvDNSSLList ++ es.filterMap Entry.dnssl?
        AdvLowpanCoList := iface.AdvLowpanCoList ++ es.filterMap Entry.lowpanco?
        AdvAbroList := iface.AdvAbroList ++ es.filterMap Entry.abro?
        AdvRASrcAddressList := iface.AdvRASrcAddressList ++ es.filterMap Entry.rasrc? } := by
  induction es generalizing iface with
  | nil => simp
  | cons e es ih =>
    rw [List.foldl_cons, ih]
    cases e <;> simp [add, List.filterMap_cons, Entry.pfx?, Entry.client?, Entry.route?, Entry.rdnss?,
      Entry.dnssl?, Entry.lowpanco?, Entry.abro?, Entry.rasrc?]

@[simp] theorem bare_foldl_add (es : List Entry) (iface : IfaceConf) : bare (es.foldl add iface) = bare iface := by
  rw [foldl_add]
  rfl

@[simp] theorem interval_foldl_add (es : List Entry) (iface : IfaceConf) :
    (es.foldl add iface).MaxRtrAdvInterval = iface.MaxRtrAdvInterval := by
  rw [foldl_add]

/-- Entries in another order. -/
theorem sameUpToOrder_add {es es' : List Entry} (h : es.Perm es') (iface : IfaceConf) :
    SameUpToOrder (es.foldl add iface) (es'.foldl add iface) := by
  simp only [foldl_add]
  exact
    { rest := rfl
      AdvPrefixList := (h.filterMap _).append_left _
      ClientList := (h.filterMap _).append_left _
      AdvRouteList := (h.filterMap _).append_left _
      AdvRDNSSList := (h.filterMap _).append_left _
      AdvDNSSLList := (h.filterMap _).append_left _
      AdvLowpanCoList := (h.filterMap _).append_left _
      AdvAbroList := (h.filterMap _).append_left _
      AdvRASrcAddressList := (h.filterMap _).append_left _ }

/-! ### Settings -/

theorem ifaceval_add (v : IfaceVal) (e : Entry) (iface : IfaceConf) :
    ifaceval v (add iface e) = add (ifaceval v iface) e := by
  cases e <;> cases v <;> rfl

theorem set_add (s : Statement) (es : List Entry) (iface : IfaceConf) :
    s.set (es.foldl add iface) = es.foldl add (s.set iface) := by
  induction es generalizing iface with
  | nil => rfl
  | cons e es ih =>
    rw [List.foldl_cons, ih, List.foldl_cons]
    cases s with
    | ifaceval s => exact congrArg (es.foldl add) (ifaceval_add s.parm e iface)
    | _ => rfl

theorem set_interval (s : Statement) (iface : IfaceConf) :
    (s.set iface).MaxRtrAdvInterval = s.interval iface.MaxRtrAdvInterval := by
  cases s with
  | ifaceval s =>
    change (ifaceval s.parm iface).MaxRtrAdvInterval = match s.parm with
      | .MaxRtrAdvInterval v => v
      | _ => iface.MaxRtrAdvInterval
    cases s.parm <;> rfl
  | _ => rfl

theorem sets_interval (ss : List Statement) (iface : IfaceConf) :
    (ss.foldl Statement.set iface).MaxRtrAdvInterval = ss.foldl Statement.interval iface.MaxRtrAdvInterval := by
  induction ss generalizing iface with
  | nil => rfl
  | cons s ss ih => rw [List.foldl_cons, ih, set_interval, List.foldl_cons]

/-- The keyword of a setting. -/
def IfaceVal.keyword : IfaceVal → Token
  | .MinRtrAdvInterval _ => .T_MinRtrAdvInterval
  | .MaxRtrAdvInterval _ => .T_MaxRtrAdvInterval
  | .MinDelayBetweenRAs _ => .T_MinDelayBetweenRAs
  | .IgnoreIfMissing _ => .T_IgnoreIfMissing
  | .AdvSendAdvert _ => .T_AdvSendAdvert
  | .AdvManagedFlag _ => .T_AdvManagedFlag
  | .AdvOtherConfigFlag _ => .T_AdvOtherConfigFlag
  | .AdvLinkMTU _ => .T_AdvLinkMTU
  | .AdvRAMTU _ => .T_AdvRAMTU
  | .AdvReachableTime _ => .T_AdvReachableTime
  | .AdvRetransTimer _ => .T_AdvRetransTimer
  | .AdvDefaultLifetime _ => .T_AdvDefaultLifetime
  | .AdvDefaultPreference _ => .T_AdvDefaultPreference
  | .AdvCurHopLimit _ => .T_AdvCurHopLimit
  | .AdvSourceLLAddress _ => .T_AdvSourceLLAddress
  | .AdvIntervalOpt _ => .T_AdvIntervalOpt
  | .AdvHomeAgentInfo _ => .T_AdvHomeAgentInfo
  | .AdvHomeAgentFlag _ => .T_AdvHomeAgentFlag
  | .HomeAgentPreference _ => .T_HomeAgentPreference
  | .HomeAgentLifetime _ => .T_HomeAgentLifetime
  | .UnicastOnly _ => .T_UnicastOnly
  | .AdvRASolicitedUnicast _ => .T_AdvRASolicitedUnicast
  | .AdvMobRtrSupportFlag _ => .T_AdvMobRtrSupportFlag

theorem keyword_eq (s : Setting IfaceVal ifacevalOf) : s.keyword = s.parm.keyword := by
  have h := s.parm_eq
  unfold ifacevalOf at h
  split at h <;> first
    | cases h
    | (obtain ⟨_, -, hv⟩ := Option.map_eq_some_iff.mp h
       rw [← hv]
       assumption)

/-- Settings of two keywords in either order. -/
theorem ifaceval_comm {v w : IfaceVal} (h : v.keyword ≠ w.keyword) (iface : IfaceConf) :
    ifaceval v (ifaceval w iface) = ifaceval w (ifaceval v iface) := by
  cases v <;> cases w <;> first | rfl | exact absurd rfl h

section Keyword
variable {v w : IfaceVal} (h : v.keyword = w.keyword)
include h

/-- The later setting of a keyword counts. -/
theorem ifaceval_overwrites (iface : IfaceConf) : ifaceval v (ifaceval w iface) = ifaceval v iface := by
  cases v <;> cases w <;> cases h <;> rfl

/-- Whether two settings of a keyword do the same can be seen on any interface. -/
theorem ifaceval_same {i : IfaceConf} (hi : bare (ifaceval v i) = bare (ifaceval w i)) (j : IfaceConf) :
    ifaceval v j = ifaceval w j := by
  cases v <;> cases w <;> cases h <;> simpa [ifaceval, bare] using hi

end Keyword

/-! ### What a definition makes of the interval -/

theorem applied_put {α β : Type} {of : Token → Token → Option α} (lifetime : α → Option UInt32)
    (keep : UInt32 → UInt32) (action base : α → β → β) (put : UInt32 → β → β)
    (h : ∀ v a x, action v (put a x) = put (((lifetime v).map keep).getD a) (base v x))
    (ss : List (Setting α of)) (a : UInt32) (x : β) :
    applied action ss (put a x) =
      put (((lastLifetime lifetime ss).map keep).getD a) (applied base ss x) := by
  induction ss generalizing a x with
  | nil => rfl
  | cons s ss ih =>
    change applied action ss (action s.parm (put a x)) = _
    rw [h, ih, lastLifetime]
    cases lastLifetime lifetime ss <;> rfl

theorem routeMade_eq {n : UInt32} (hn : ¬ MAX_PrefixLen < n.toNat) (a : In6Addr)
    (body : List (Setting RouteParm routeparmOf)) :
    ∃ r : AdvRoute, ∀ M, routeMade M a n body =
      some { r with AdvRouteLifetime := (lastLifetime RouteParm.lifetime body).getD (toU32 (3 * M)) } := by
  have happlied := applied_put RouteParm.lifetime id routeparms routeparms
    (fun (a : UInt32) (r : AdvRoute) => { r with AdvRouteLifetime := a })
    (by intro v a x; cases v <;> rfl) body
  refine ⟨applied routeparms body { routeInitDefaults 0 with Prefix := a, PrefixLen := n.toUInt8 }, fun M => ?_⟩
  have hM := happlied (toU32 (3 * M)) { routeInitDefaults 0 with Prefix := a, PrefixLen := n.toUInt8 }
  rw [Option.map_id] at hM
  rw [routeMade, if_neg hn]
  exact congrArg some hM

theorem addAddrs_lifetime (as : List In6Addr) (l : UInt32) (r : AdvRDNSS) :
    addAddrs { r with AdvRDNSSLifetime := l } as =
      (addAddrs r as).map fun r => { r with AdvRDNSSLifetime := l } := by
  induction as generalizing r with
  | nil => rfl
  | cons a as ih =>
    have hadd : addAddr a { r with AdvRDNSSLifetime := l } =
        (addAddr a r).map fun r => { r with AdvRDNSSLifetime := l } := by
      unfold addAddr
      dsimp only
      split_ifs <;> rfl
    rw [addAddrs, hadd, addAddrs]
    cases addAddr a r with
    | none => rfl
    | some r => exact ih r

/-- There is room for three addresses. -/
theorem addAddrs_none (as : List In6Addr) (r : AdvRDNSS) :
    addAddrs r as = none ↔ 3 < r.AdvRDNSSNumber + as.length := by
  induction as generalizing r with
  | nil =>
    have hr := r.number_le
    simp [addAddrs, hr]
  | cons a as ih =>
    have hr := r.number_le
    rw [addAddrs, addAddr, List.length_cons]
    split_ifs with h0 h1 h2
    · rw [Option.bind_some, ih, h0]
      dsimp only
      omega
    · rw [Option.bind_some, ih, h1]
      dsimp only
      omega
    · rw [Option.bind_some, ih, h2]
      dsimp only
      omega
    · simp only [Option.bind_none, true_iff]
      omega

theorem rdnssMade_eq {as : List In6Addr} (has : as.length ≤ 3) (body : List (Setting RdnssParm rdnssparmOf)) :
    ∃ r : AdvRDNSS, ∀ M, rdnssMade M as body =
      some { r with AdvRDNSSLifetime := (lastLifetime RdnssParm.lifetime body).getD (toU32 M) } := by
  have hadds : addAddrs (rdnssInitDefaults 0) as ≠ none := by
    rw [Ne, addAddrs_none]
    change ¬ 3 < 0 + as.length
    omega
  obtain ⟨r, hr⟩ := Option.ne_none_iff_exists'.mp hadds
  refine ⟨applied (rdnssparms 0) body r, fun M => ?_⟩
  have happlied := applied_put RdnssParm.lifetime id (rdnssparms M) (rdnssparms 0)
    (fun (l : UInt32) (r : AdvRDNSS) => { r with AdvRDNSSLifetime := l })
    (by intro v a x; cases v <;> rfl) body (toU32 M) r
  have hinit := addAddrs_lifetime as (toU32 M) (rdnssInitDefaults 0)
  rw [Option.map_id] at happlied
  rw [hr] at hinit
  change (addAddrs { rdnssInitDefaults 0 with AdvRDNSSLifetime := toU32 M } as).map _ = _
  rw [hinit]
  exact congrArg some happlied

theorem dnsslMade_eq {ss : List Buf} (hss : ss.all (·.all suffixChar) = true)
    (body : List (Setting DnsslParm dnsslparmOf)) :
    ∃ d : AdvDNSSL, ∀ M, dnsslMade M ss body =
      some { d with
        AdvDNSSLLifetime := ((lastLifetime DnsslParm.lifetime body).map (raised M)).getD (toU32 M) } := by
  refine ⟨applied (dnsslparms 0) body { dnsslInitDefaults 0 with AdvDNSSLSuffixes := ss }, fun M => ?_⟩
  have happlied := applied_put DnsslParm.lifetime (raised M) (dnsslparms M) (dnsslparms 0)
    (fun (l : UInt32) (d : AdvDNSSL) => { d with AdvDNSSLLifetime := l })
    (by intro v a x; cases v <;> rfl) body (toU32 M) { dnsslInitDefaults 0 with AdvDNSSLSuffixes := ss }
  rw [dnsslMade, if_pos hss]
  exact congrArg some happlied

/-! ### Entries of a statement -/

theorem made_refused {s : Statement} (hs : s.refused) (M : ℚ) : s.made M = none := by
  cases s with
  | prefixdef a n body =>
    change (prefixMade a n (body.getD [])).map _ = none
    unfold prefixMade
    obtain hn | hp | h6 := hs
    · rw [if_pos hn]
      rfl
    · by_cases hn : MAX_PrefixLen < n.toNat
      · rw [if_pos hn]
        rfl
      · rw [if_neg hn]
        dsimp only
        rw [if_pos hp]
        rfl
    · dsimp only
      rw [if_pos h6]
      split_ifs <;> rfl
  | routedef a n body =>
    change (routeMade M a n body).map _ = none
    unfold routeMade
    rw [if_pos (show MAX_PrefixLen < n.toNat from hs)]
    rfl
  | rdnssdef a as body =>
    have hadds : addAddrs (rdnssInitDefaults M) (a :: as) = none := by
      rw [addAddrs_none]
      change 3 < 0 + (as.length + 1)
      change 2 < as.length at hs
      omega
    change (rdnssMade M (a :: as) body).map _ = none
    rw [rdnssMade, hadds]
    rfl
  | dnssldef x ss body =>
    change (dnsslMade M (x :: ss) body).map _ = none
    rw [dnsslMade, if_neg (by rw [hs]; decide)]
    rfl
  | ifaceval | clientslist | lowpancodef | abrodef | rasrcaddresslist => exact False.elim hs

/-- What a statement that is not refused adds. -/
def Statement.entries (M : ℚ) (s : Statement) : List Entry := (s.made M).getD []

theorem made_entries {s : Statement} (hs : ¬ s.refused) (M : ℚ) : s.made M = some (s.entries M) := by
  have hsome : s.made M ≠ none := by
    cases s with
    | prefixdef a n body =>
      change (prefixMade a n (body.getD [])).map _ ≠ none
      obtain ⟨hn, hp⟩ := not_or.mp hs
      obtain ⟨hp, h6⟩ := not_or.mp hp
      unfold prefixMade
      rw [if_neg hn]
      dsimp only
      rw [if_neg hp, if_neg h6]
      exact Option.some_ne_none _
    | routedef a n body =>
      obtain ⟨r, hr⟩ := routeMade_eq hs a body
      change (routeMade M a n body).map _ ≠ none
      rw [hr]
      exact Option.some_ne_none _
    | rdnssdef a as body =>
      obtain ⟨r, hr⟩ := @rdnssMade_eq (a :: as) (Nat.succ_le_succ (Nat.le_of_not_lt hs)) body
      change (rdnssMade M (a :: as) body).map _ ≠ none
      rw [hr]
      exact Option.some_ne_none _
    | dnssldef x ss body =>
      obtain ⟨d, hd⟩ := dnsslMade_eq (Bool.not_eq_false _ ▸ hs : (x :: ss).all (·.all suffixChar) = true) body
      change (dnsslMade M (x :: ss) body).map _ ≠ none
      rw [hd]
      exact Option.some_ne_none _
    | ifaceval | clientslist | lowpancodef | abrodef | rasrcaddresslist => exact Option.some_ne_none _
  obtain ⟨es, hes⟩ := Option.ne_none_iff_exists'.mp hsome
  rw [Statement.entries, hes]
  rfl

theorem entries_routedef {a : In6Addr} {n : UInt32} {body : List (Setting RouteParm routeparmOf)}
    (hs : ¬ (Statement.routedef a n body).refused) :
    ∃ r : AdvRoute, ∀ M, (Statement.routedef a n body).entries M =
      [.route { r with AdvRouteLifetime := (lastLifetime RouteParm.lifetime body).getD (toU32 (3 * M)) }] := by
  obtain ⟨r, hr⟩ := routeMade_eq hs a body
  refine ⟨r, fun M => ?_⟩
  change ((routeMade M a n body).map _).getD [] = _
  rw [hr]
  rfl

theorem entries_rdnssdef {a : In6Addr} {as : List In6Addr} {body : List (Setting RdnssParm rdnssparmOf)}
    (hs : ¬ (Statement.rdnssdef a as body).refused) :
    ∃ r : AdvRDNSS, ∀ M, (Statement.rdnssdef a as body).entries M =
      [.rdnss { r with AdvRDNSSLifetime := (lastLifetime RdnssParm.lifetime body).getD (toU32 M) }] := by
  obtain ⟨r, hr⟩ := @rdnssMade_eq (a :: as) (Nat.succ_le_succ (Nat.le_of_not_lt hs)) body
  refine ⟨r, fun M => ?_⟩
  change ((rdnssMade M (a :: as) body).map _).getD [] = _
  rw [hr]
  rfl

theorem entries_dnssldef {x : Buf} {ss : List Buf} {body : List (Setting DnsslParm dnsslparmOf)}
    (hs : ¬ (Statement.dnssldef x ss body).refused) :
    ∃ d : AdvDNSSL, ∀ M, (Statement.dnssldef x ss body).entries M =
      [.dnssl { d with
        AdvDNSSLLifetime := ((lastLifetime DnsslParm.lifetime body).map (raised M)).getD (toU32 M) }] := by
  obtain ⟨d, hd⟩ := dnsslMade_eq (Bool.not_eq_false _ ▸ hs : (x :: ss).all (·.all suffixChar) = true) body
  refine ⟨d, fun M => ?_⟩
  change ((dnsslMade M (x :: ss) body).map _).getD [] = _
  rw [hd]
  rfl

/-- The lifetime of an entry, if it has one that the interval bounds. -/
def Entry.Lasting (M : ℚ) : Entry → Prop
  | .rdnss r => Gram.Lasting M r.AdvRDNSSLifetime
  | .dnssl d => Gram.Lasting M d.AdvDNSSLLifetime
  | _ => True

theorem toU32_natCast (n : ℕ) : toU32 n = UInt32.ofNat (n % 4294967296) := by
  have hn : truncate n = n := by simp [truncate]
  rw [toU32, hn]
  congr 1

theorem toU32_600 : toU32 600 = 600 := toU32_natCast 600

theorem toU32_1800 : toU32 (3 * 600) = 1800 := by
  have h : (3 * 600 : ℚ) = (1800 : ℕ) := by norm_num
  rw [h]
  exact toU32_natCast 1800

/-- A lifetime that was the default one. -/
theorem default_steady_iff (M : ℚ) :
    toU32 M = 600 ∧ M ≤ 600 ↔ toU32 M = toU32 600 ∧ Lasting M (toU32 M) := by
  rw [toU32_600]
  refine and_congr_right fun hM => ?_
  rw [hM]
  constructor
  · intro h
    exact Or.inr (Or.inr (by simpa using h))
  · rintro (h | h | h)
    · exact absurd h (by decide)
    · exact absurd h (by decide)
    · simpa using h

theorem eq_of_toU32 {M : ℚ} (hpos : 0 ≤ M) (hle : M ≤ 600) (hM : toU32 M = 600) : M = 600 := by
  have hfloor : ⌊M⌋ ≤ 600 := by
    have := Int.floor_mono hle
    simpa using this
  have hnonneg : 0 ≤ ⌊M⌋ := Int.floor_nonneg.mpr hpos
  have hnat := congrArg UInt32.toNat hM
  rw [toU32, truncate, if_pos hpos, Int.emod_eq_of_lt hnonneg (by omega), UInt32.toNat_ofNat'] at hnat
  have hfloor_eq : ⌊M⌋ = 600 := by
    change ⌊M⌋.toNat % 4294967296 = 600 at hnat
    omega
  have hlower := Int.floor_le M
  rw [hfloor_eq] at hlower
  exact le_antisymm hle (by exact_mod_cast hlower)

theorem raised_steady_iff (M : ℚ) (n : UInt32) :
    n = 0 ∨ 600 ≤ n.toNat ∧ M ≤ n.toNat ∨ n.toNat < 600 ∧ M = 600 ∨ n = 0xffffffff ∧ toU32 M = 0xffffffff ↔
      raised M n = raised 600 n ∧ Lasting M (raised M n) := by
  have hlt : n.toNat < 4294967296 := UInt32.toNat_lt n
  by_cases h0 : n = 0
  · subst h0
    simp [raised, Lasting]
  have hraised : ∀ N : ℚ, raised N n = if (n.toNat : ℚ) < N then toU32 N else n := by
    intro N
    simp [raised, h0]
  rw [hraised, hraised, toU32_600]
  by_cases hM : (n.toNat : ℚ) < M <;> by_cases h6 : (n.toNat : ℚ) < 600
  · -- raised to the interval in front of the statement that sets it and behind it
    have hnat : n.toNat < 600 := by exact_mod_cast h6
    have hpos : (0 : ℚ) ≤ M := le_trans (Nat.cast_nonneg _) hM.le
    have hinf : n ≠ 0xffffffff := by
      rintro rfl
      exact absurd hnat (by decide)
    have hdefault := default_steady_iff M
    rw [toU32_600] at hdefault
    rw [if_pos hM, if_pos h6, ← hdefault]
    constructor
    · rintro (h | h | h | h)
      · exact absurd h h0
      · omega
      · rw [h.2]
        exact ⟨toU32_600, le_refl _⟩
      · exact absurd h.1 hinf
    · intro h
      exact Or.inr (Or.inr (Or.inl ⟨hnat, eq_of_toU32 hpos h.2 h.1⟩))
  · have hnat : 600 ≤ n.toNat := by exact_mod_cast not_lt.mp h6
    rw [if_pos hM, if_neg h6]
    constructor
    · rintro (h | h | h | h)
      · exact absurd h h0
      · exact absurd h.2 (not_le.mpr hM)
      · omega
      · exact ⟨h.2.trans h.1.symm, Or.inr (Or.inl h.2)⟩
    · rintro ⟨heq, h⟩
      rw [heq] at h
      obtain h | h | h := h
      · exact absurd h h0
      · exact Or.inr (Or.inr (Or.inr ⟨h, heq.trans h⟩))
      · exact absurd h (not_le.mpr hM)
  · have hnat : n.toNat < 600 := by exact_mod_cast h6
    rw [if_neg hM, if_pos h6]
    constructor
    · rintro (h | h | h | h)
      · exact absurd h h0
      · omega
      · rw [h.2] at hM
        exact absurd h6 hM
      · rw [h.1] at hnat
        exact absurd hnat (by decide)
    · rintro ⟨h, -⟩
      rw [h] at hnat
      exact absurd hnat (by decide)
  · have hnat : 600 ≤ n.toNat := by exact_mod_cast not_lt.mp h6
    rw [if_neg hM, if_neg h6]
    exact iff_of_true (Or.inr (Or.inl ⟨hnat, not_lt.mp hM⟩)) ⟨rfl, Or.inr (Or.inr (not_lt.mp hM))⟩

theorem steady_iff {s : Statement} (hs : ¬ s.refused) (M : ℚ) :
    s.Steady M ↔ s.entries M = s.entries 600 ∧ ∀ e ∈ s.entries M, e.Lasting M := by
  cases s with
  | routedef a n body =>
    obtain ⟨r, hr⟩ := entries_routedef hs
    change lastLifetime RouteParm.lifetime body ≠ none ∨ toU32 (3 * M) = 1800 ↔ _
    rw [hr, hr]
    cases lastLifetime RouteParm.lifetime body <;> simp [Entry.Lasting, toU32_1800]
  | rdnssdef a as body =>
    obtain ⟨r, hr⟩ := entries_rdnssdef hs
    rw [hr, hr, Statement.Steady]
    cases lastLifetime RdnssParm.lifetime body with
    | none => simpa [Entry.Lasting] using default_steady_iff M
    | some n => simp [Entry.Lasting, Gram.Lasting]
  | dnssldef x ss body =>
    obtain ⟨d, hd⟩ := entries_dnssldef hs
    rw [hd, hd, Statement.Steady]
    cases lastLifetime DnsslParm.lifetime body with
    | none => simpa [Entry.Lasting] using default_steady_iff M
    | some n => simpa [Entry.Lasting] using raised_steady_iff M n
  | prefixdef a n body =>
    have hentries : ∀ e ∈ (Statement.prefixdef a n body).entries M, e.Lasting M := by
      intro e he
      change e ∈ ((prefixMade a n (body.getD [])).map fun p => [Entry.pfx p]).getD [] at he
      cases hp : prefixMade a n (body.getD []) with
      | none =>
        rw [hp] at he
        cases he
      | some p =>
        rw [hp] at he
        rw [List.mem_singleton.mp he]
        trivial
    exact iff_of_true trivial ⟨rfl, hentries⟩
  | ifaceval => exact iff_of_true trivial ⟨rfl, fun e he => absurd he List.not_mem_nil⟩
  | lowpancodef | abrodef =>
    refine iff_of_true trivial ⟨rfl, ?_⟩
    intro e he
    rw [List.mem_singleton.mp he]
    trivial
  | clientslist a as =>
    refine iff_of_true trivial ⟨rfl, ?_⟩
    intro e he
    obtain ⟨a, -, rfl⟩ := List.mem_map.mp he
    trivial
  | rasrcaddresslist a as =>
    refine iff_of_true trivial ⟨rfl, ?_⟩
    intro e he
    obtain ⟨a, -, rfl⟩ := List.mem_map.mp he
    trivial

/-! ### The statements of a block -/

/-- What the statements add behind the interval `MaxRtrAdvInterval`. -/
def entriesFrom : ℚ → List Statement → List Entry
  | _, [] => []
  | M, s :: ss => s.entries M ++ entriesFrom (s.interval M) ss

theorem sets_add (ss : List Statement) (es : List Entry) (iface : IfaceConf) :
    ss.foldl Statement.set (es.foldl add iface) = es.foldl add (ss.foldl Statement.set iface) := by
  induction ss generalizing iface with
  | nil => rfl
  | cons s ss ih => rw [List.foldl_cons, set_add, ih, List.foldl_cons]

theorem execs_eq {ss : List Statement} (h : ∀ s ∈ ss, ¬ s.refused) (iface : IfaceConf) :
    execs iface ss =
      some ((entriesFrom iface.MaxRtrAdvInterval ss).foldl add (ss.foldl Statement.set iface)) := by
  induction ss generalizing iface with
  | nil => rfl
  | cons s ss ih =>
    rw [execs, Statement.exec, made_entries (h s (by simp)), Option.map_some, Option.bind_some,
      ih (fun t ht => h t (List.mem_cons_of_mem s ht)), interval_foldl_add, set_interval, sets_add]
    rw [entriesFrom, List.foldl_append, List.foldl_cons]

theorem execs_refused {s : Statement} {ss : List Statement} (hmem : s ∈ ss) (hs : s.refused) (iface : IfaceConf) :
    execs iface ss = none := by
  induction ss generalizing iface with
  | nil => cases hmem
  | cons t ss ih =>
    rw [execs]
    obtain rfl | hmem := List.mem_cons.mp hmem
    · rw [Statement.exec, made_refused hs]
      rfl
    · cases t.exec iface with
      | none => rfl
      | some iface' => exact ih hmem iface'

/-! ### The interval of a block -/

theorem interval_shape (s : Statement) : (∀ N, s.interval N = N) ∨ ∃ v, ∀ N, s.interval N = v := by
  cases s with
  | ifaceval s =>
    cases hs : s.parm with
    | MaxRtrAdvInterval v => exact Or.inr ⟨v, fun N => by simp [Statement.interval, hs]⟩
    | _ => exact Or.inl fun N => by simp [Statement.interval, hs]
  | _ => exact Or.inl fun _ => rfl

theorem interval_const {s : Statement} {v : ℚ} (hs : ∀ N, s.interval N = v) :
    ∃ k, s = .ifaceval k ∧ k.parm = .MaxRtrAdvInterval v := by
  have hne := hs (v + 1)
  cases s with
  | ifaceval k =>
    refine ⟨k, rfl, ?_⟩
    cases hk : k.parm with
    | MaxRtrAdvInterval w =>
      simp only [Statement.interval, hk] at hne
      rw [hne]
    | _ =>
      simp only [Statement.interval, hk] at hne
      linarith
  | _ =>
    simp only [Statement.interval] at hne
    linarith

theorem interval_agree {B : List Statement} (hB : Agreeing B) {s t : Statement} {v w : ℚ} (hs : s ∈ B)
    (ht : t ∈ B) (hv : ∀ N, s.interval N = v) (hw : ∀ N, t.interval N = w) : v = w := by
  obtain ⟨k, rfl, hk⟩ := interval_const hv
  obtain ⟨l, rfl, hl⟩ := interval_const hw
  have hkeyword : k.keyword = l.keyword := by
    rw [keyword_eq, keyword_eq, hk, hl]
    rfl
  have hsame := hB k l hs ht hkeyword
  rw [hk, hl] at hsame
  exact congrArg (fun i => i.MaxRtrAdvInterval) hsame

theorem interval_fixed {ss : List Statement} {v : ℚ} (h : ∀ t ∈ ss, t.interval v = v) :
    ss.foldl Statement.interval v = v := by
  induction ss with
  | nil => rfl
  | cons t ss ih =>
    rw [List.foldl_cons, h t (by simp)]
    exact ih fun t ht => h t (List.mem_cons_of_mem _ ht)

/-- A statement leaves the interval alone or sets that of the block. -/
theorem interval_cases {B : List Statement} (hB : Agreeing B) {s : Statement} (hs : s ∈ B) :
    (∀ N, s.interval N = N) ∨ ∀ N, s.interval N = intervalOf B := by
  obtain h | ⟨v, hv⟩ := interval_shape s
  · exact Or.inl h
  have hfixed : ∀ t ∈ B, t.interval v = v := by
    intro t ht
    obtain h | ⟨w, hw⟩ := interval_shape t
    · exact h v
    · rw [hw, interval_agree hB hs ht hv hw]
  obtain ⟨front, behind, hsplit⟩ := List.append_of_mem hs
  have hlast : intervalOf B = v := by
    rw [intervalOf, hsplit, List.foldl_append, List.foldl_cons, hv]
    refine interval_fixed fun t ht => hfixed t ?_
    rw [hsplit]
    simp [ht]
  rw [hlast]
  exact Or.inr hv

/-- The statement that sets the interval of a block. -/
theorem intervalOf_set {B : List Statement} (hB : Agreeing B) (hM : intervalOf B ≠ 600) :
    ∃ s ∈ B, ∀ N, s.interval N = intervalOf B := by
  by_contra hnone
  refine hM (interval_fixed fun t ht => ?_)
  obtain h | h := interval_cases hB ht
  · exact h _
  · exact absurd ⟨t, ht, h⟩ hnone

theorem entriesFrom_steady {M : ℚ} {ss : List Statement}
    (hinterval : ∀ t ∈ ss, (∀ N, t.interval N = N) ∨ ∀ N, t.interval N = M)
    (hsteady : ∀ t ∈ ss, t.entries M = t.entries 600) {N : ℚ} (hN : N = 600 ∨ N = M) :
    entriesFrom N ss = ss.flatMap (Statement.entries M) := by
  induction ss generalizing N with
  | nil => rfl
  | cons t ss ih =>
    have hfirst : t.entries N = t.entries M := by
      obtain rfl | rfl := hN
      · exact (hsteady t (by simp)).symm
      · rfl
    have hnext : t.interval N = 600 ∨ t.interval N = M := by
      obtain h | h := hinterval t (by simp)
      · rw [h]
        exact hN
      · exact Or.inr (h N)
    rw [entriesFrom, List.flatMap_cons, hfirst, ih (fun t ht => hinterval t (List.mem_cons_of_mem _ ht))
      (fun t ht => hsteady t (List.mem_cons_of_mem _ ht)) hnext]

theorem set_comm {B : List Statement} (hB : Agreeing B) {s t : Statement} (hs : s ∈ B) (ht : t ∈ B)
    (iface : IfaceConf) : t.set (s.set iface) = s.set (t.set iface) := by
  cases s with
  | ifaceval k =>
    cases t with
    | ifaceval l =>
      change ifaceval l.parm (ifaceval k.parm iface) = ifaceval k.parm (ifaceval l.parm iface)
      by_cases hkeyword : k.keyword = l.keyword
      · have hsame := ifaceval_same (by rw [← keyword_eq, ← keyword_eq]; exact hkeyword)
          (congrArg bare (hB k l hs ht hkeyword))
        rw [hsame iface, hsame]
      · rw [keyword_eq, keyword_eq] at hkeyword
        exact ifaceval_comm (Ne.symm hkeyword) iface
    | _ => rfl
  | _ => rfl

/-- An agreeing block whose statements are steady, in any order. -/
theorem read_steady {B B' : List Statement} (name : Buf) (hB : Agreeing B) (h : B'.Perm B)
    (hrefused : ∀ s ∈ B, ¬ s.refused)
    (hsteady : ∀ s ∈ B, s.entries (intervalOf B) = s.entries 600) :
    ifaceRead (blockToks name B') =
      some ((B'.flatMap (Statement.entries (intervalOf B))).foldl add
        (B.foldl Statement.set { ifaceInitDefaults with name := ifname name })) := by
  have hsets := h.foldl_eq' (f := Statement.set)
    (fun s hs t ht iface => set_comm hB (h.subset hs) (h.subset ht) iface)
    { ifaceInitDefaults with name := ifname name }
  have hentries := entriesFrom_steady (N := 600) (fun t ht => interval_cases hB (h.subset ht))
    (fun t ht => hsteady t (h.subset ht)) (Or.inl rfl)
  rw [ifaceRead_block, execs_eq fun s hs => hrefused s (h.subset hs), hsets]
  rw [← hentries]
  rfl

theorem set_lists (s : Statement) (iface : IfaceConf) :
    (s.set iface).AdvRDNSSList = iface.AdvRDNSSList ∧ (s.set iface).AdvDNSSLList = iface.AdvDNSSLList := by
  cases s with
  | ifaceval s =>
    change (ifaceval s.parm iface).AdvRDNSSList = _ ∧ (ifaceval s.parm iface).AdvDNSSLList = _
    cases s.parm <;> exact ⟨rfl, rfl⟩
  | _ => exact ⟨rfl, rfl⟩

theorem sets_lists (ss : List Statement) (iface : IfaceConf) :
    (ss.foldl Statement.set iface).AdvRDNSSList = iface.AdvRDNSSList ∧
      (ss.foldl Statement.set iface).AdvDNSSLList = iface.AdvDNSSLList := by
  induction ss generalizing iface with
  | nil => exact ⟨rfl, rfl⟩
  | cons s ss ih =>
    have hset := set_lists s iface
    rw [List.foldl_cons, (ih _).1, (ih _).2]
    exact hset

/-- The lifetimes of an interface made of entries. -/
theorem lifetimesLast_iff (name : Buf) (B : List Statement) (es : List Entry) :
    LifetimesLast (es.foldl add (B.foldl Statement.set { ifaceInitDefaults with name := ifname name })) ↔
      ∀ e ∈ es, e.Lasting (intervalOf B) := by
  have hlists := sets_lists B { ifaceInitDefaults with name := ifname name }
  have hM : (B.foldl Statement.set { ifaceInitDefaults with name := ifname name }).MaxRtrAdvInterval =
      intervalOf B := sets_interval B _
  rw [foldl_add]
  constructor
  · intro h e he
    cases e with
    | rdnss r =>
      have hr := h.rdnss r (by
        rw [hlists.1]
        exact List.mem_append_right _ (List.mem_filterMap.mpr ⟨_, he, rfl⟩))
      rwa [← hM]
    | dnssl d =>
      have hd := h.dnssl d (by
        rw [hlists.2]
        exact List.mem_append_right _ (List.mem_filterMap.mpr ⟨_, he, rfl⟩))
      rwa [← hM]
    | _ => trivial
  · intro h
    constructor
    · intro r hr
      rw [hlists.1] at hr
      obtain ⟨e, he, her⟩ := List.mem_filterMap.mp hr
      have hlast := h e he
      rw [hM]
      cases e <;> cases her
      exact hlast
    · intro d hd
      rw [hlists.2] at hd
      obtain ⟨e, he, hed⟩ := List.mem_filterMap.mp hd
      have hlast := h e he
      rw [hM]
      cases e <;> cases hed
      exact hlast

theorem SameUpToOrder.symm {i j : IfaceConf} (h : SameUpToOrder i j) : SameUpToOrder j i where
  rest := h.rest.symm
  AdvPrefixList := h.AdvPrefixList.symm
  ClientList := h.ClientList.symm
  AdvRouteList := h.AdvRouteList.symm
  AdvRDNSSList := h.AdvRDNSSList.symm
  AdvDNSSLList := h.AdvDNSSLList.symm
  AdvLowpanCoList := h.AdvLowpanCoList.symm
  AdvAbroList := h.AdvAbroList.symm
  AdvRASrcAddressList := h.AdvRASrcAddressList.symm

theorem SameUpToOrder.trans {i j k : IfaceConf} (h : SameUpToOrder i j) (h' : SameUpToOrder j k) :
    SameUpToOrder i k where
  rest := h.rest.trans h'.rest
  AdvPrefixList := h.AdvPrefixList.trans h'.AdvPrefixList
  ClientList := h.ClientList.trans h'.ClientList
  AdvRouteList := h.AdvRouteList.trans h'.AdvRouteList
  AdvRDNSSList := h.AdvRDNSSList.trans h'.AdvRDNSSList
  AdvDNSSLList := h.AdvDNSSLList.trans h'.AdvDNSSLList
  AdvLowpanCoList := h.AdvLowpanCoList.trans h'.AdvLowpanCoList
  AdvAbroList := h.AdvAbroList.trans h'.AdvAbroList
  AdvRASrcAddressList := h.AdvRASrcAddressList.trans h'.AdvRASrcAddressList

/-- Two members of a list in front of it. -/
theorem perm_two {α : Type} {B : List α} {s t : α} (hs : s ∈ B) (ht : t ∈ B) (hst : s ≠ t) :
    ∃ R, B.Perm (s :: t :: R) := by
  obtain ⟨front, behind, rfl⟩ := List.append_of_mem hs
  have hrest : t ∈ front ++ behind := by
    simp only [List.mem_append, List.mem_cons] at ht ⊢
    obtain h | h | h := ht
    · exact Or.inl h
    · exact absurd h.symm hst
    · exact Or.inr h
  obtain ⟨front', behind', hsplit⟩ := List.append_of_mem hrest
  refine ⟨front' ++ behind', List.perm_middle.trans (List.Perm.cons s ?_)⟩
  rw [hsplit]
  exact List.perm_middle

/-- What a statement adds can be seen beside what the others add. -/
theorem entries_cancel {s : Statement} (hs : ¬ s.refused) {M N : ℚ} {X : List Entry} {iface : IfaceConf}
    (h : SameUpToOrder ((s.entries M ++ X).foldl add iface) ((s.entries N ++ X).foldl add iface)) :
    s.entries M = s.entries N := by
  simp only [foldl_add, List.filterMap_append] at h
  have hroute := h.AdvRouteList
  have hrdnss := h.AdvRDNSSList
  have hdnssl := h.AdvDNSSLList
  simp only [List.perm_append_left_iff, List.perm_append_right_iff] at hroute hrdnss hdnssl
  cases s with
  | routedef a n body =>
    obtain ⟨r, hr⟩ := entries_routedef hs
    rw [hr, hr] at hroute ⊢
    rw [List.singleton_perm_singleton.mp hroute]
  | rdnssdef a as body =>
    obtain ⟨r, hr⟩ := entries_rdnssdef hs
    rw [hr, hr] at hrdnss ⊢
    rw [List.singleton_perm_singleton.mp hrdnss]
  | dnssldef x ss body =>
    obtain ⟨d, hd⟩ := entries_dnssldef hs
    rw [hd, hd] at hdnssl ⊢
    rw [List.singleton_perm_singleton.mp hdnssl]
  | _ => rfl

section Free
variable {name : Buf} {B : List Statement}

/-- Steady statements of agreeing settings may stand in any order. -/
theorem orderFree_of_steady (hrefused : ∀ s ∈ B, ¬ s.refused) (hB : Agreeing B)
    (hsteady : ∀ s ∈ B, s.Steady (intervalOf B)) : OrderFree name B := by
  have hentries : ∀ s ∈ B, s.entries (intervalOf B) = s.entries 600 := by
    intro s hs
    exact ((steady_iff (hrefused s hs) _).mp (hsteady s hs)).1
  have hread := fun B' (h : List.Perm B' B) => read_steady name hB h hrefused hentries
  constructor
  · intro B' h
    rw [hread B' h, hread B (.refl B)]
    exact sameUpToOrder_add (h.flatMap_right _) _
  · intro iface hiface
    rw [hread B (.refl B)] at hiface
    cases hiface
    rw [lifetimesLast_iff]
    intro e he
    obtain ⟨s, hs, hes⟩ := List.mem_flatMap.mp he
    exact ((steady_iff (hrefused s hs) _).mp (hsteady s hs)).2 e hes

theorem orderFree_of_refused {s : Statement} (hs : s ∈ B) (hrefused : s.refused) : OrderFree name B := by
  have hread : ∀ B', B'.Perm B → ifaceRead (blockToks name B') = none := by
    intro B' h
    rw [ifaceRead_block, execs_refused (h.symm.subset hs) hrefused]
  constructor
  · intro B' h
    rw [hread B' h, hread B (.refl B)]
    trivial
  · intro iface hiface
    rw [hread B (.refl B)] at hiface
    cases hiface

/-- Two orders of an order-free block give interfaces that are the same up to the order
    of their lists. -/
theorem OrderFree.same (h : OrderFree name B) (hrefused : ∀ s ∈ B, ¬ s.refused) {B₁ B₂ : List Statement}
    (h₁ : B₁.Perm B) (h₂ : B₂.Perm B) :
    SameUpToOrder
      ((entriesFrom 600 B₁).foldl add (B₁.foldl Statement.set { ifaceInitDefaults with name := ifname name }))
      ((entriesFrom 600 B₂).foldl add (B₂.foldl Statement.set { ifaceInitDefaults with name := ifname name })) := by
  have hread : ∀ B', B'.Perm B → ifaceRead (blockToks name B') = some ((entriesFrom 600 B').foldl add
      (B'.foldl Statement.set { ifaceInitDefaults with name := ifname name })) := by
    intro B' h
    rw [ifaceRead_block, execs_eq fun s hs => hrefused s (h.subset hs)]
    rfl
  have hagree₁ := h.agree B₁ h₁
  have hagree₂ := h.agree B₂ h₂
  rw [hread B₁ h₁, hread B (.refl B)] at hagree₁
  rw [hread B₂ h₂, hread B (.refl B)] at hagree₂
  exact SameUpToOrder.trans hagree₁ (SameUpToOrder.symm hagree₂)

theorem agreeing_of_orderFree (h : OrderFree name B) (hrefused : ∀ s ∈ B, ¬ s.refused) : Agreeing B := by
  intro s t hs ht hkeyword
  by_cases hst : Statement.ifaceval s = Statement.ifaceval t
  · cases hst
    rfl
  obtain ⟨R, hR⟩ := perm_two hs ht hst
  -- either setting last
  have h₁ : (R ++ [Statement.ifaceval s, Statement.ifaceval t]).Perm B := List.perm_append_comm.trans hR.symm
  have h₂ : (R ++ [Statement.ifaceval t, Statement.ifaceval s]).Perm B :=
    ((List.Perm.swap _ _ []).append_left R).trans h₁
  have hrest := (h.same hrefused h₁ h₂).rest
  rw [bare_foldl_add, bare_foldl_add, List.foldl_append, List.foldl_append] at hrest
  generalize R.foldl Statement.set { ifaceInitDefaults with name := ifname name } = J at hrest
  change bare (ifaceval t.parm (ifaceval s.parm J)) = bare (ifaceval s.parm (ifaceval t.parm J)) at hrest
  rw [keyword_eq, keyword_eq] at hkeyword
  rw [ifaceval_overwrites hkeyword.symm, ifaceval_overwrites hkeyword] at hrest
  exact ifaceval_same hkeyword hrest.symm _

theorem entries_of_orderFree (h : OrderFree name B) (hrefused : ∀ s ∈ B, ¬ s.refused) {s : Statement}
    (hs : s ∈ B) : s.entries (intervalOf B) = s.entries 600 := by
  have hB := agreeing_of_orderFree h hrefused
  by_cases hM : intervalOf B = 600
  · rw [hM]
  obtain ⟨m, hm, hset⟩ := intervalOf_set hB hM
  have hmEntries : ∀ N, m.entries N = [] := by
    obtain ⟨k, rfl, -⟩ := interval_const hset
    exact fun N => rfl
  by_cases hsm : s = m
  · rw [hsm, hmEntries, hmEntries]
  obtain ⟨R, hR⟩ := perm_two hs hm hsm
  -- the statement in front of the one that sets the interval, and behind it
  have h₁ : (m :: s :: R).Perm B := (List.Perm.swap _ _ R).trans hR.symm
  have hsame := h.same hrefused h₁ hR.symm
  have hsets : (m :: s :: R).foldl Statement.set { ifaceInitDefaults with name := ifname name } =
      (s :: m :: R).foldl Statement.set { ifaceInitDefaults with name := ifname name } := by
    rw [List.foldl_cons, List.foldl_cons, set_comm hB hm hs, List.foldl_cons, List.foldl_cons]
  have hinterval : s.interval (intervalOf B) = intervalOf B := by
    obtain hid | hset := interval_cases hB hs
    · exact hid _
    · exact hset _
  have hfront : entriesFrom 600 (m :: s :: R) =
      s.entries (intervalOf B) ++ entriesFrom (intervalOf B) R := by
    rw [entriesFrom, entriesFrom, hmEntries, hset, hinterval]
    rfl
  have hbehind : entriesFrom 600 (s :: m :: R) = s.entries 600 ++ entriesFrom (intervalOf B) R := by
    rw [entriesFrom, entriesFrom, hmEntries, hset]
    rfl
  rw [hsets, hfront, hbehind] at hsame
  exact entries_cancel (hrefused s hs) hsame

theorem steady_of_orderFree (h : OrderFree name B) (hrefused : ∀ s ∈ B, ¬ s.refused) :
    ∀ s ∈ B, s.Steady (intervalOf B) := by
  intro s hs
  have hentries := fun s hs => entries_of_orderFree h hrefused (s := s) hs
  have hread := read_steady name (agreeing_of_orderFree h hrefused) (.refl B) hrefused hentries
  have hlast := (lifetimesLast_iff name B _).mp (h.last _ hread)
  rw [steady_iff (hrefused s hs)]
  exact ⟨hentries s hs, fun e he => hlast e (List.mem_flatMap.mpr ⟨s, hs, he⟩)⟩

end Free

/-- The order of a block's statements does not matter and its lifetimes are long enough
    exactly where a statement is refused, or two settings of one keyword do the same and
    every definition is steady for the interval of the block. -/
theorem orderFree_iff (name : Buf) (B : List Statement) :
    OrderFree name B ↔
      (∃ s ∈ B, s.refused) ∨ Agreeing B ∧ ∀ s ∈ B, s.Steady (intervalOf B) := by
  constructor
  · intro h
    by_cases hrefused : ∃ s ∈ B, s.refused
    · exact Or.inl hrefused
    · have hnone : ∀ s ∈ B, ¬ s.refused := fun s hs hr => hrefused ⟨s, hs, hr⟩
      exact Or.inr ⟨agreeing_of_orderFree h hnone, steady_of_orderFree h hnone⟩
  · rintro (⟨s, hs, hrefused⟩ | ⟨hB, hsteady⟩)
    · exact orderFree_of_refused hs hrefused
    · by_cases hrefused : ∃ s ∈ B, s.refused
      · obtain ⟨s, hs, hr⟩ := hrefused
        exact orderFree_of_refused hs hr
      · exact orderFree_of_steady (fun s hs hr => hrefused ⟨s, hs, hr⟩) hB hsteady

/-- `RDNSS ::  { AdvRDNSSLifetime 5; };` in a block whose interval is 600. -/
def shortRdnss : Statement :=
  .rdnssdef zeroAddr []
    [{ keyword := .T_AdvRDNSSLifetime
       value := .NUMBER 5
       parm := .AdvRDNSSLifetime 5
       parm_eq := rfl }]

/-- The lifetime is raised to the interval and set back to 5. -/
theorem shortRdnss_kept : ¬ OrderFree [101, 116, 104, 48] [shortRdnss] := by
  intro h
  obtain ⟨iface, hread, hlist, hinterval⟩ : ∃ iface, ifaceRead (blockToks [101, 116, 104, 48] [shortRdnss]) = some iface ∧
      iface.AdvRDNSSList.map AdvRDNSS.AdvRDNSSLifetime = [5] ∧ iface.MaxRtrAdvInterval = 600 := by
    rw [ifaceRead_block]
    exact ⟨_, rfl, rfl, rfl⟩
  obtain ⟨r, hr, hlifetime⟩ := List.mem_map.mp (hlist ▸ List.mem_singleton_self 5)
  have hlast := (h.last iface hread).rdnss r hr
  rw [hlifetime, hinterval] at hlast
  obtain h | h | h := hlast
  · exact absurd h (by decide)
  · exact absurd h (by decide)
  · have hnat : (600 : ℚ) ≤ (5 : ℕ) := h
    norm_num at hnat

end WanStack.Radvd.Gram
