import Mathlib.Data.List.Perm.Basic
import WanStack.Radvd.Config

set_option autoImplicit false

/-!
# Checking an interface

`check_iface`. One cursor goes over the prefixes twice: it first looks for a router
address, and the check of the prefixes begins where that search ended.
-/
namespace WanStack.Radvd

def mipv6Flags (iface : IfaceConf) : Bool :=
  iface.ra_header_info.AdvHomeAgentFlag || iface.mipv6.AdvHomeAgentInfo || iface.mipv6.AdvIntervalOpt

/-- The first loop, and where it leaves `prefix`. -/
def mipv6Loop : Bool → List AdvPrefix → Bool × List AdvPrefix
  | MIPv6, [] => (MIPv6, [])
  | true, p :: ps => (true, p :: ps)
  | false, p :: ps => mipv6Loop p.AdvRouterAddr ps

/-! ### The constraints -/

def MinIntervalBad (MIPv6 : Bool) (iface : IfaceConf) : Prop :=
  iface.MinRtrAdvInterval < (if MIPv6 then MIN_MinRtrAdvInterval_MIPv6 else MIN_MinRtrAdvInterval) ∨
    3 / 4 * iface.MaxRtrAdvInterval < iface.MinRtrAdvInterval
deriving Decidable

def MaxIntervalBad (MIPv6 : Bool) (iface : IfaceConf) : Prop :=
  iface.MaxRtrAdvInterval < (if MIPv6 then MIN_MaxRtrAdvInterval_MIPv6 else MIN_MaxRtrAdvInterval) ∨
    MAX_MaxRtrAdvInterval < iface.MaxRtrAdvInterval
deriving Decidable

def DelayBad (MIPv6 : Bool) (iface : IfaceConf) : Prop :=
  iface.MinDelayBetweenRAs < (if MIPv6 then MIN_DELAY_BETWEEN_RAS_MIPv6 else MIN_DELAY_BETWEEN_RAS)
deriving Decidable

def MtuBad (iface : IfaceConf) : Prop :=
  iface.AdvLinkMTU ≠ 0 ∧ (iface.AdvLinkMTU < MIN_AdvLinkMTU ∨
    iface.if_maxmtu ≠ -1 ∧ iface.if_maxmtu % 4294967296 < iface.AdvLinkMTU.toNat)
deriving Decidable

def ReachableBad (iface : IfaceConf) : Prop := MAX_AdvReachableTime < iface.ra_header_info.AdvReachableTime
deriving Decidable

def LifetimeBad (iface : IfaceConf) : Prop :=
  iface.ra_header_info.AdvDefaultLifetime ≠ 0 ∧
    (MAX_AdvDefaultLifetime < iface.ra_header_info.AdvDefaultLifetime ∨
      (iface.ra_header_info.AdvDefaultLifetime : ℚ) < max 1 iface.MaxRtrAdvInterval)
deriving Decidable

def HomeAgentBad (iface : IfaceConf) : Prop :=
  iface.mipv6.AdvHomeAgentInfo ∧ (MAX_HomeAgentLifetime < iface.mipv6.HomeAgentLifetime ∨
    iface.mipv6.HomeAgentLifetime < MIN_HomeAgentLifetime)
deriving Decidable

def HomeAgentFlagBad (iface : IfaceConf) : Prop :=
  iface.mipv6.AdvHomeAgentInfo ∧ ¬iface.ra_header_info.AdvHomeAgentFlag
deriving Decidable

def MobRtrBad (iface : IfaceConf) : Prop := iface.mipv6.AdvMobRtrSupportFlag ∧ ¬iface.mipv6.AdvHomeAgentInfo
deriving Decidable

def PrefixOk (p : AdvPrefix) : Prop :=
  p.PrefixLen.toNat ≤ MAX_PrefixLen ∧ p.AdvPreferredLifetime ≤ p.AdvValidLifetime
deriving Decidable

def RouteOk (r : AdvRoute) : Prop := r.PrefixLen.toNat ≤ MAX_PrefixLen
deriving Decidable

/-! ### The function -/

def setMinInterval (iface : IfaceConf) : IfaceConf :=
  { iface with
    MinRtrAdvInterval :=
      if iface.MinRtrAdvInterval < 0 then 33 / 100 * iface.MaxRtrAdvInterval else iface.MinRtrAdvInterval }

def setDefaultLifetime (iface : IfaceConf) : IfaceConf :=
  { iface with
    ra_header_info :=
      { iface.ra_header_info with
        AdvDefaultLifetime :=
          if iface.ra_header_info.AdvDefaultLifetime < 0 then max 1 (truncate (3 * iface.MaxRtrAdvInterval))
          else iface.ra_header_info.AdvDefaultLifetime } }

def setHomeAgentLifetime (iface : IfaceConf) : IfaceConf :=
  { iface with
    mipv6 :=
      { iface.mipv6 with
        HomeAgentLifetime :=
          if iface.mipv6.HomeAgentLifetime < 0 then iface.ra_header_info.AdvDefaultLifetime
          else iface.mipv6.HomeAgentLifetime } }

/-- A check that is not met. -/
def fail (bad : Prop) [Decidable bad] (res : ℤ) : ℤ := if bad then -1 else res

def prefixLoop : List AdvPrefix → ℤ → ℤ
  | [], res => res
  | p :: ps, res =>
    prefixLoop ps
      (fail (p.AdvValidLifetime < p.AdvPreferredLifetime) (fail (MAX_PrefixLen < p.PrefixLen.toNat) res))

/-- A default route whose lifetime conflicts is only reported. -/
def routeLoop : List AdvRoute → ℤ → ℤ
  | [], res => res
  | r :: rs, res => routeLoop rs (fail (MAX_PrefixLen < r.PrefixLen.toNat) res)

/-- `check_iface`: the result, and the interface with its defaults set. -/
def checkIface (iface : IfaceConf) : ℤ × IfaceConf :=
  let (MIPv6, pfx) := mipv6Loop (mipv6Flags iface) iface.AdvPrefixList
  let iface := setMinInterval iface
  let res := fail (MinIntervalBad MIPv6 iface) 0
  let res := fail (MaxIntervalBad MIPv6 iface) res
  let res := fail (DelayBad MIPv6 iface) res
  let res := fail (MtuBad iface) res
  let res := fail (ReachableBad iface) res
  let iface := setDefaultLifetime iface
  let res := fail (LifetimeBad iface) res
  let iface := setHomeAgentLifetime iface
  let res := fail (HomeAgentBad iface) res
  let res := fail (HomeAgentFlagBad iface) res
  let res := fail (MobRtrBad iface) res
  let res := prefixLoop pfx res
  (routeLoop iface.AdvRouteList res, iface)

/-! ### What a verdict says -/

def usesMipv6 (iface : IfaceConf) : Bool := mipv6Flags iface || iface.AdvPrefixList.any (·.AdvRouterAddr)

/-- The interface with its defaults set. -/
def withDefaults (iface : IfaceConf) : IfaceConf := setHomeAgentLifetime (setDefaultLifetime (setMinInterval iface))

/-- The constraints on everything but the prefixes and the routes. -/
structure SettingsOk (MIPv6 : Bool) (iface : IfaceConf) : Prop where
  minInterval : ¬MinIntervalBad MIPv6 iface
  maxInterval : ¬MaxIntervalBad MIPv6 iface
  delay : ¬DelayBad MIPv6 iface
  mtu : ¬MtuBad iface
  reachable : ¬ReachableBad iface
  lifetime : ¬LifetimeBad iface
  homeAgent : ¬HomeAgentBad iface
  homeAgentFlag : ¬HomeAgentFlagBad iface
  mobRtr : ¬MobRtrBad iface

/-- What `check_iface` is there to find out. -/
structure Valid (iface : IfaceConf) : Prop where
  settings : SettingsOk (usesMipv6 iface) (withDefaults iface)
  prefixes : ∀ p ∈ iface.AdvPrefixList, PrefixOk p
  routes : ∀ r ∈ iface.AdvRouteList, RouteOk r

theorem fail_eq_zero (bad : Prop) [Decidable bad] (res : ℤ) : fail bad res = 0 ↔ ¬bad ∧ res = 0 := by
  unfold fail
  split
  · next h => simp [h]
  · next h => simp [h]

theorem prefixLoop_eq_zero (ps : List AdvPrefix) (res : ℤ) :
    prefixLoop ps res = 0 ↔ (∀ p ∈ ps, PrefixOk p) ∧ res = 0 := by
  induction ps generalizing res with
  | nil => simp [prefixLoop]
  | cons p ps ih =>
    rw [prefixLoop, ih, fail_eq_zero, fail_eq_zero, List.forall_mem_cons, PrefixOk, Nat.not_lt,
      UInt32.not_lt]
    tauto

theorem routeLoop_eq_zero (rs : List AdvRoute) (res : ℤ) :
    routeLoop rs res = 0 ↔ (∀ r ∈ rs, RouteOk r) ∧ res = 0 := by
  induction rs generalizing res with
  | nil => simp [routeLoop]
  | cons r rs ih =>
    rw [routeLoop, ih, fail_eq_zero, List.forall_mem_cons, RouteOk, Nat.not_lt]
    tauto

theorem mipv6Loop_true (ps : List AdvPrefix) : mipv6Loop true ps = (true, ps) := by
  cases ps <;> rfl

theorem mipv6Loop_fst (MIPv6 : Bool) (ps : List AdvPrefix) :
    (mipv6Loop MIPv6 ps).1 = (MIPv6 || ps.any (·.AdvRouterAddr)) := by
  induction ps generalizing MIPv6 with
  | nil => simp [mipv6Loop]
  | cons p ps ih =>
    cases MIPv6 with
    | true => rfl
    | false =>
      rw [mipv6Loop, ih]
      simp

theorem mem_mipv6Loop (MIPv6 : Bool) (ps : List AdvPrefix) {p : AdvPrefix} (h : p ∈ (mipv6Loop MIPv6 ps).2) :
    p ∈ ps := by
  induction ps generalizing MIPv6 with
  | nil => exact h
  | cons x ps ih =>
    cases MIPv6 with
    | true => exact h
    | false => exact List.mem_cons_of_mem _ (ih x.AdvRouterAddr h)

/-- The verdict, with the prefixes that are left when the first loop ends. -/
theorem checkIface_eq_zero (iface : IfaceConf) :
    (checkIface iface).1 = 0 ↔ SettingsOk (usesMipv6 iface) (withDefaults iface) ∧
      (∀ p ∈ (mipv6Loop (mipv6Flags iface) iface.AdvPrefixList).2, PrefixOk p) ∧
      ∀ r ∈ iface.AdvRouteList, RouteOk r := by
  have huses : (mipv6Loop (mipv6Flags iface) iface.AdvPrefixList).1 = usesMipv6 iface :=
    mipv6Loop_fst (mipv6Flags iface) iface.AdvPrefixList
  unfold checkIface
  dsimp only
  rw [routeLoop_eq_zero, prefixLoop_eq_zero, huses]
  simp only [fail_eq_zero]
  constructor
  · rintro ⟨hroutes, hprefixes, hmob, hflag, hagent, hlife, hreach, hmtu, hdelay, hmax, hmin, -⟩
    exact ⟨⟨hmin, hmax, hdelay, hmtu, hreach, hlife, hagent, hflag, hmob⟩, hprefixes, hroutes⟩
  · rintro ⟨⟨hmin, hmax, hdelay, hmtu, hreach, hlife, hagent, hflag, hmob⟩, hprefixes, hroutes⟩
    exact ⟨hroutes, hprefixes, hmob, hflag, hagent, hlife, hreach, hmtu, hdelay, hmax, hmin, trivial⟩

/-! ### Every order of the entries -/

def reordered (iface : IfaceConf) (ps : List AdvPrefix) (rs : List AdvRoute) : IfaceConf :=
  { iface with
    AdvPrefixList := ps
    AdvRouteList := rs }

/-- The verdict is the right one wherever an entry stands in its list. -/
def RightInEveryOrder (iface : IfaceConf) : Prop :=
  ∀ ps rs, ps.Perm iface.AdvPrefixList → rs.Perm iface.AdvRouteList →
    ((checkIface (reordered iface ps rs)).1 = 0 ↔ Valid iface)

/-- A router address whose prefix is bad. -/
def badRouter (p : AdvPrefix) : Bool := p.AdvRouterAddr && !decide (PrefixOk p)

/-- Mobile IPv6 is on by a flag, so that the first loop passes no prefix; or no prefix is
    bad; or something else is; or two bad prefixes are router addresses, and one of them
    is not passed. -/
def Unpassed (iface : IfaceConf) : Prop :=
  mipv6Flags iface ∨ (∀ p ∈ iface.AdvPrefixList, PrefixOk p) ∨
    ¬SettingsOk (usesMipv6 iface) (withDefaults iface) ∨ (∃ r ∈ iface.AdvRouteList, ¬RouteOk r) ∨
      2 ≤ iface.AdvPrefixList.countP badRouter

section Order
variable {iface : IfaceConf} {ps : List AdvPrefix} {rs : List AdvRoute}

theorem settingsOk_reordered (MIPv6 : Bool) :
    SettingsOk MIPv6 (withDefaults (reordered iface ps rs)) ↔ SettingsOk MIPv6 (withDefaults iface) := by
  constructor
  · rintro ⟨hmin, hmax, hdelay, hmtu, hreach, hlife, hagent, hflag, hmob⟩
    exact ⟨hmin, hmax, hdelay, hmtu, hreach, hlife, hagent, hflag, hmob⟩
  · rintro ⟨hmin, hmax, hdelay, hmtu, hreach, hlife, hagent, hflag, hmob⟩
    exact ⟨hmin, hmax, hdelay, hmtu, hreach, hlife, hagent, hflag, hmob⟩

/-- The verdict on the entries in another order. -/
theorem checkIface_reordered (hps : ps.Perm iface.AdvPrefixList) (hrs : rs.Perm iface.AdvRouteList) :
    (checkIface (reordered iface ps rs)).1 = 0 ↔ SettingsOk (usesMipv6 iface) (withDefaults iface) ∧
      (∀ p ∈ (mipv6Loop (mipv6Flags iface) ps).2, PrefixOk p) ∧ ∀ r ∈ iface.AdvRouteList, RouteOk r := by
  have huses : usesMipv6 (reordered iface ps rs) = usesMipv6 iface := by
    change (mipv6Flags iface || ps.any (·.AdvRouterAddr)) =
      (mipv6Flags iface || iface.AdvPrefixList.any (·.AdvRouterAddr))
    rw [hps.any_eq]
  have hroutes : (∀ r ∈ rs, RouteOk r) ↔ ∀ r ∈ iface.AdvRouteList, RouteOk r := by
    simp only [hrs.mem_iff]
  rw [checkIface_eq_zero, huses, settingsOk_reordered]
  exact and_congr_right fun _ => and_congr_right fun _ => hroutes

/-- The first loop passes at most one router address. -/
theorem countP_mipv6Loop (ps : List AdvPrefix) :
    ps.countP badRouter ≤ (mipv6Loop false ps).2.countP badRouter + 1 := by
  induction ps with
  | nil => exact Nat.zero_le _
  | cons p ps ih =>
    rw [mipv6Loop, List.countP_cons]
    cases hrouter : p.AdvRouterAddr with
    | true =>
      rw [mipv6Loop_true]
      dsimp only
      split <;> omega
    | false =>
      have hgood : badRouter p = false := by simp [badRouter, hrouter]
      rw [hgood]
      exact ih

theorem mipv6Loop_none (ps : List AdvPrefix) (h : ∀ p ∈ ps, p.AdvRouterAddr = false) :
    (mipv6Loop false ps).2 = [] := by
  induction ps with
  | nil => rfl
  | cons p ps ih =>
    rw [mipv6Loop, h p List.mem_cons_self]
    exact ih fun x hx => h x (List.mem_cons_of_mem _ hx)

theorem mipv6Loop_first (ps rest : List AdvPrefix) {p : AdvPrefix} (h : ∀ x ∈ ps, x.AdvRouterAddr = false)
    (hp : p.AdvRouterAddr = true) : (mipv6Loop false (ps ++ p :: rest)).2 = rest := by
  induction ps with
  | nil =>
    rw [List.nil_append, mipv6Loop, hp, mipv6Loop_true]
  | cons x ps ih =>
    rw [List.cons_append, mipv6Loop, h x List.mem_cons_self]
    exact ih fun y hy => h y (List.mem_cons_of_mem _ hy)

/-- With at most one bad router address, an order in which all that is bad is passed. -/
theorem exists_order (ps : List AdvPrefix) (h : ps.countP badRouter ≤ 1) :
    ∃ ps', ps'.Perm ps ∧ ∀ p ∈ (mipv6Loop false ps').2, PrefixOk p := by
  have hsplit : (ps.filter (fun p => !p.AdvRouterAddr) ++ ps.filter (·.AdvRouterAddr)).Perm ps :=
    List.perm_append_comm.trans (List.filter_append_perm (·.AdvRouterAddr) ps)
  have hplain : ∀ p ∈ ps.filter (fun p => !p.AdvRouterAddr), p.AdvRouterAddr = false := by
    intro p hp
    simpa using (List.mem_filter.mp hp).2
  have hrouter : ∀ p ∈ ps.filter (·.AdvRouterAddr), p.AdvRouterAddr = true :=
    fun p hp => (List.mem_filter.mp hp).2
  generalize ps.filter (fun p => !p.AdvRouterAddr) = plain at hsplit hplain
  generalize ps.filter (·.AdvRouterAddr) = routers at hsplit hrouter
  by_cases hbad : ∃ b ∈ routers, ¬PrefixOk b
  · obtain ⟨b, hb, hbok⟩ := hbad
    obtain ⟨s, t, rfl⟩ := List.append_of_mem hb
    have hperm : (plain ++ b :: (s ++ t)).Perm ps :=
      ((List.Perm.append_left plain List.perm_middle).symm).trans hsplit
    refine ⟨plain ++ b :: (s ++ t), hperm, ?_⟩
    rw [mipv6Loop_first plain (s ++ t) hplain (hrouter b hb)]
    have hcount : (s ++ t).countP badRouter = 0 := by
      have htotal := hperm.countP_eq badRouter
      have hbcount : badRouter b = true := by simp [badRouter, hrouter b hb, hbok]
      rw [List.countP_append, List.countP_cons, hbcount, if_pos rfl] at htotal
      omega
    intro p hp
    have hprouter := hrouter p (List.mem_append.mpr ((List.mem_append.mp hp).imp_right (List.mem_cons_of_mem b)))
    simpa [badRouter, hprouter] using List.countP_eq_zero.mp hcount p hp
  · push Not at hbad
    cases routers with
    | nil =>
      refine ⟨plain, by simpa using hsplit, ?_⟩
      rw [mipv6Loop_none plain hplain]
      simp
    | cons r rest =>
      refine ⟨plain ++ r :: rest, hsplit, ?_⟩
      rw [mipv6Loop_first plain rest hplain (hrouter r List.mem_cons_self)]
      exact fun p hp => hbad p (List.mem_cons_of_mem _ hp)

end Order

/-- When the validator is right about an interface, in whatever order its entries stand. -/
theorem rightInEveryOrder_iff (iface : IfaceConf) : RightInEveryOrder iface ↔ Unpassed iface := by
  constructor
  · intro hright
    by_contra hpassed
    simp only [Unpassed, not_or, not_not, Bool.not_eq_true, Nat.not_le] at hpassed
    obtain ⟨hflags, hbad, hsettings, hroutes, hcount⟩ := hpassed
    push Not at hroutes
    obtain ⟨ps, hperm, hok⟩ := exists_order iface.AdvPrefixList (by omega)
    rw [← hflags] at hok
    have hverdict := (checkIface_reordered hperm (List.Perm.refl _)).mpr ⟨hsettings, hok, hroutes⟩
    exact hbad ((hright ps _ hperm (List.Perm.refl _)).mp hverdict).prefixes
  · intro hunpassed ps rs hps hrs
    rw [checkIface_reordered hps hrs]
    constructor
    · rintro ⟨hsettings, hseen, hroutes⟩
      refine ⟨hsettings, ?_, hroutes⟩
      rcases hunpassed with hflags | hok | hno | ⟨r, hr, hbad⟩ | hcount
      · rw [hflags, mipv6Loop_true] at hseen
        exact fun p hp => hseen p (hps.mem_iff.mpr hp)
      · exact hok
      · exact absurd hsettings hno
      · exact absurd (hroutes r hr) hbad
      · cases hflags : mipv6Flags iface with
        | true =>
          rw [hflags, mipv6Loop_true] at hseen
          exact fun p hp => hseen p (hps.mem_iff.mpr hp)
        | false =>
          -- of two bad router addresses the loop passes one
          have hpassed := countP_mipv6Loop ps
          have hnone : (mipv6Loop false ps).2.countP badRouter = 0 := by
            apply List.countP_eq_zero.mpr
            intro p hp
            rw [hflags] at hseen
            simp [badRouter, hseen p hp]
          rw [hps.countP_eq] at hpassed
          omega
    · intro hvalid
      refine ⟨hvalid.settings, ?_, hvalid.routes⟩
      intro p hp
      exact hvalid.prefixes p (hps.mem_iff.mp (mem_mipv6Loop _ ps hp))

/-- A prefix that prefers its addresses for longer than they are valid. -/
def staleInterface : IfaceConf :=
  { ifaceInitDefaults with
    AdvPrefixList :=
      [{ prefixInitDefaults with
          PrefixLen := 64
          AdvValidLifetime := 600 }] }

/-- No Mobile IPv6: the search for a router address goes to the end of the list. -/
theorem staleInterface_passes : ¬∀ iface, RightInEveryOrder iface := by
  intro hall
  have hpasses : (checkIface staleInterface).1 = 0 := by decide +kernel
  have hvalid := (hall staleInterface _ _ (List.Perm.refl _) (List.Perm.refl _)).mp hpasses
  have hok := hvalid.prefixes _ List.mem_cons_self
  exact absurd hok (by decide)

end WanStack.Radvd
