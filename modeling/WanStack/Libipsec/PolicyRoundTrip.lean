import WanStack.Libipsec.PolicyDump

set_option autoImplicit false

/-!
# Policies read back

When the text that `ipsec_dump_policy_withports` gives for a parsed policy is
parsed to the same direction, type, priority and requests.
-/
namespace WanStack.Libipsec
open Scanner

/-! ### What is parsed -/

section Parse
variable {libc : Libc} {dir : Dir}

def Numbered (l : Level) (reqid : ℕ) : Prop := reqid < 4294967296 ∧ (reqid ≠ 0 → l = .UNIQUE)

theorem u32_lt (v : ℤ) : u32 v < 4294967296 := by
  unfold u32
  omega

theorem numbered_zero (l : Level) : Numbered l 0 := ⟨by decide, fun h => absurd rfl h⟩

theorem level_numbered {toks : List Token} {l : Level × ℕ × List Token} (h : level toks = some l) :
    Numbered l.1 l.2.1 := by
  unfold level at h
  split at h
  · obtain rfl := Option.some.inj h
    exact numbered_zero _
  · obtain rfl := Option.some.inj h
    dsimp only
    exact ⟨u32_lt _, fun _ => rfl⟩
  · cases h

theorem levelPart_numbered {toks : List Token} {l : Level × ℕ × List Token} (h : levelPart toks = some l) :
    Numbered l.1 l.2.1 := by
  unfold levelPart at h
  split at h
  · exact level_numbered h
  · exact level_numbered h
  · obtain rfl := Option.some.inj h
    exact numbered_zero _
  · obtain rfl := Option.some.inj h
    exact numbered_zero _

theorem ruleTail_numbered {p : Proto} {m : Mode} {toks : List Token} {r : Request × List Token}
    (h : ruleTail libc dir p m toks = some r) : Numbered r.1.level r.1.reqid := by
  unfold ruleTail at h
  split at h
  · obtain ⟨l, hl, rfl⟩ := Option.map_eq_some_iff.mp h
    exact level_numbered hl
  · obtain rfl := Option.some.inj h
    exact numbered_zero _
  · obtain rfl := Option.some.inj h
    exact numbered_zero _
  · obtain ⟨a, -, hrest⟩ := Option.bind_eq_some_iff.mp h
    obtain ⟨l, hl, rfl⟩ := Option.map_eq_some_iff.mp hrest
    exact levelPart_numbered hl
  · obtain rfl := Option.some.inj h
    exact numbered_zero _

theorem rule_numbered {toks : List Token} {r : Request × List Token} (h : rule libc dir toks = some r) :
    Numbered r.1.level r.1.reqid := by
  unfold rule at h
  split at h
  · exact ruleTail_numbered h
  · cases h

theorem rules_parsed {type : PolicyType} {fuel : ℕ} {toks : List Token} {rs : List Request}
    (h : rules libc dir type fuel toks = some rs) :
    ∀ r ∈ rs, ruleCheck type r ∧ Numbered r.level r.reqid := by
  induction fuel generalizing toks rs with
  | zero =>
    cases toks with
    | nil =>
      obtain rfl := Option.some.inj h
      simp
    | cons t ts => cases h
  | succ fuel ih =>
    cases toks with
    | nil =>
      obtain rfl := Option.some.inj h
      simp
    | cons t ts =>
      obtain ⟨r, hr, hrest⟩ := Option.bind_eq_some_iff.mp h
      split at hrest
      · next hcheck =>
        obtain ⟨tail, htail, rfl⟩ := Option.map_eq_some_iff.mp hrest
        intro x hx
        cases List.mem_cons.mp hx with
        | inl heq =>
          rw [heq]
          exact ⟨hcheck, rule_numbered hr⟩
        | inr hx => exact ih htail x hx
      · cases hrest

theorem policySpec_inv {toks : List Token} {spec : Spec} (h : policySpec toks = some spec) :
    spec.priority < 4294967296 ∧ .DIR spec.dir ∈ toks := by
  have hu32 : ∀ v, u32 v < 4294967296 := u32_lt
  unfold policySpec at h
  split at h
  case h_3 | h_4 | h_6 | h_7 =>
    split at h
    · cases h
    · obtain rfl := Option.some.inj h
      dsimp only
      exact ⟨hu32 _, List.mem_cons_self⟩
  case h_8 => cases h
  all_goals
    obtain rfl := Option.some.inj h
    dsimp only
  case h_5 => exact ⟨hu32 _, List.mem_cons_self⟩
  all_goals exact ⟨by decide, List.mem_cons_self⟩

def ThreeDirs : Token → Prop
  | .DIR d => d = .INBOUND ∨ d = .OUTBOUND ∨ d = .FWD
  | _ => True

/-- The scanner knows three directions. -/
theorem yylex_dirs (msg : Text) {d : Dir} (h : .DIR d ∈ yylex msg) :
    d = .INBOUND ∨ d = .OUTBOUND ∨ d = .FWD := by
  have hrules : ∀ r ∈ policyRules, ∀ w t, r.token w = some t → ThreeDirs t := by
    simp only [policyRules, List.forall_mem_cons, List.not_mem_nil, false_imp_iff, implies_true, word,
      decstring, uniqueDecstring, ipaddress, port, ws, nl, Option.some.injEq, forall_eq', ThreeDirs, reduceCtorEq, true_or, or_true, and_self]
  exact lex_forall policyRules hrules msg _ h

end Parse

/-! ### The printed text parsed -/

section Printed
variable {libc : Libc}

theorem atol_offset {n : ℕ} (hn : n < 4294967296) : atol (decimal n) = n := by
  apply atol_decimal
  unfold LONG_MAX
  omega

/-- A priority that is printed as nothing is the default one. -/
theorem policySpec_printed (d : Dir) (t : PolicyType) {priority : ℕ} (hlt : priority < 4294967296)
    (rest : List Token) :
    policySpec (.DIR d :: (prioTokens priority ++ .ACTION t :: rest)) =
      some
        { dir := d
          type := t
          priority := if priority = 0 then PRIORITY_DEFAULT else priority
          rules := rest } := by
  unfold prioTokens
  split
  · rfl
  · have hband : (band priority).1 < 4294967296 ∧ priority ≤ (band priority).1 + PRIORITY_OFFSET_POSITIVE_MAX ∧
        (band priority).1 ≤ priority + PRIORITY_OFFSET_NEGATIVE_MAX := by
      unfold band PRIORITY_DEFAULT PRIORITY_HIGH PRIORITY_LOW PRIORITY_OFFSET_POSITIVE_MAX
        PRIORITY_OFFSET_NEGATIVE_MAX
      split
      · omega
      · split <;> omega
    generalize band priority = b at hband
    split
    · next heq =>
      have hpriority : u32 (b.1 : ℤ) = priority := by
        unfold u32
        omega
      simp [policySpec, hpriority]
    · split
      · next hlt' =>
        have hatol : atol (decimal (priority - b.1)) = priority - b.1 := atol_offset (by omega)
        have hbound : ¬PRIORITY_OFFSET_POSITIVE_MAX < priority - b.1 := by omega
        have hpriority : u32 ((b.1 : ℤ) + ((priority - b.1 : ℕ) : ℤ)) = priority := by
          unfold u32
          omega
        simp only [policySpec, List.cons_append, List.nil_append, hatol, if_neg hbound, hpriority]
      · next hge =>
        have hatol : atol (decimal (b.1 - priority)) = b.1 - priority := atol_offset (by omega)
        have hbound : ¬PRIORITY_OFFSET_NEGATIVE_MAX < b.1 - priority := by omega
        have hpriority : u32 ((b.1 : ℤ) - ((b.1 - priority : ℕ) : ℤ)) = priority := by
          unfold u32
          omega
        simp only [policySpec, List.cons_append, List.nil_append, hatol, if_neg hbound, hpriority]

theorem addresses_printed {src dst : Sockaddr} (hsrc : libc.Prints src) (hdst : libc.Prints dst) (dir : Dir)
    (rest : List Token) :
    addresses libc dir (addrTokens libc (some (src, dst)) ++ rest) = some (some (src, dst), rest) := by
  simp only [addrTokens, sockTokens, List.cons_append, List.nil_append, addresses, hsrc.back, hdst.back]

/-- The level that is read where `levelTokens` stand. -/
theorem level_manual {r : Request} (h : Parsed libc r) (hreqid : r.reqid ≤ IPSEC_MANUAL_REQID_MAX)
    (rest : List Token) : level (levelTokens r ++ rest) = some (r.level, r.reqid, rest) := by
  unfold levelTokens
  split
  · next hzero => rw [hzero]; rfl
  · next hne =>
    have hatol : atol (decimal r.reqid) = r.reqid := atol_offset h.reqid_lt
    have hu32 : u32 (r.reqid : ℤ) = r.reqid := by
      have hlt := h.reqid_lt
      unfold u32
      omega
    rw [if_neg (Nat.not_lt.mpr hreqid), List.singleton_append, level, hatol, hu32, h.unique hne]

theorem level_kernel {r : Request} (hreqid : IPSEC_MANUAL_REQID_MAX < r.reqid) (rest : List Token) :
    level (levelTokens r ++ rest) = some (r.level, 0, .PRIO_OFFSET (decimal r.reqid) :: rest) := by
  have hne : r.reqid ≠ 0 := Nat.ne_of_gt (Nat.zero_lt_of_lt hreqid)
  rw [levelTokens, if_neg hne, if_pos hreqid]
  rfl

theorem levelPart_level (r : Request) (rest : List Token) :
    levelPart (.SLASH :: (levelTokens r ++ rest)) = level (levelTokens r ++ rest) := by
  unfold levelTokens
  split
  · rfl
  · split <;> rfl

/-- The request is read up to its level. -/
theorem rule_printed {r : Request} (h : Parsed libc r) (dir : Dir) (rest : List Token) :
    rule libc dir (requestTokens libc r ++ rest) = (level (levelTokens r ++ rest)).map fun l =>
      ({ proto := r.proto, mode := r.mode, level := l.1, reqid := l.2.1, addrs := r.addrs }, l.2.2) := by
  rw [requestTokens, List.cons_append, List.cons_append, List.cons_append, List.cons_append, List.append_assoc,
    List.cons_append]
  cases haddrs : r.addrs with
  | none => rfl
  | some pair =>
    obtain ⟨src, dst⟩ := pair
    obtain ⟨hsrc, hdst⟩ := h.prints src dst haddrs
    have hread := addresses_printed hsrc hdst dir (.SLASH :: (levelTokens r ++ rest))
    have htail : rule libc dir (.PROTOCOL r.proto :: .SLASH :: .MODE r.mode :: .SLASH ::
          (addrTokens libc (some (src, dst)) ++ .SLASH :: (levelTokens r ++ rest))) =
        (addresses libc dir (addrTokens libc (some (src, dst)) ++ .SLASH :: (levelTokens r ++ rest))).bind
          fun a => (levelPart a.2).map fun l =>
            ({ proto := r.proto, mode := r.mode, level := l.1, reqid := l.2.1, addrs := a.1 }, l.2.2) := rfl
    rw [htail, hread, Option.bind_some, levelPart_level]

theorem rules_offset (dir : Dir) (type : PolicyType) (fuel : ℕ) (text : Text) (rest : List Token) :
    rules libc dir type fuel (.PRIO_OFFSET text :: rest) = none := by
  cases fuel <;> rfl

theorem rules_manual {rs : List Request} (h : ∀ r ∈ rs, Parsed libc r)
    (hreqid : ∀ r ∈ rs, r.reqid ≤ IPSEC_MANUAL_REQID_MAX) (dir : Dir) {fuel : ℕ}
    (hfuel : (rs.flatMap (requestTokens libc)).length ≤ fuel) :
    rules libc dir .IPSEC fuel (rs.flatMap (requestTokens libc)) = some rs := by
  induction rs generalizing fuel with
  | nil => cases fuel <;> rfl
  | cons r rs ih =>
    rw [List.flatMap_cons] at hfuel ⊢
    have hr := h r List.mem_cons_self
    have hrule : rule libc dir (requestTokens libc r ++ rs.flatMap (requestTokens libc)) =
        some (r, rs.flatMap (requestTokens libc)) := by
      rw [rule_printed hr, level_manual hr (hreqid r List.mem_cons_self)]
      rfl
    cases fuel with
    | zero => simp [requestTokens] at hfuel
    | succ fuel =>
      have hrest : (rs.flatMap (requestTokens libc)).length ≤ fuel := by
        rw [List.length_append, requestTokens, List.length_cons] at hfuel
        omega
      have htail := ih (fun x hx => h x (List.mem_cons_of_mem _ hx))
        (fun x hx => hreqid x (List.mem_cons_of_mem _ hx)) hrest
      have hstep : rules libc dir .IPSEC (fuel + 1) (requestTokens libc r ++ rs.flatMap (requestTokens libc)) =
          (rule libc dir (requestTokens libc r ++ rs.flatMap (requestTokens libc))).bind fun r =>
            if ruleCheck .IPSEC r.1 then (rules libc dir .IPSEC fuel r.2).map (r.1 :: ·) else none := rfl
      rw [hstep, hrule, Option.bind_some, if_pos hr.check, htail, Option.map_some]

/-- A number behind a `#` starts no rule. -/
theorem rules_kernel {rs : List Request} (h : ∀ r ∈ rs, Parsed libc r)
    (hreqid : ∃ r ∈ rs, IPSEC_MANUAL_REQID_MAX < r.reqid) (dir : Dir) (fuel : ℕ) :
    rules libc dir .IPSEC fuel (rs.flatMap (requestTokens libc)) = none := by
  induction rs generalizing fuel with
  | nil => simp at hreqid
  | cons r rs ih =>
    rw [List.flatMap_cons]
    have hr := h r List.mem_cons_self
    cases fuel with
    | zero => rfl
    | succ fuel =>
      have hstep : rules libc dir .IPSEC (fuel + 1) (requestTokens libc r ++ rs.flatMap (requestTokens libc)) =
          (rule libc dir (requestTokens libc r ++ rs.flatMap (requestTokens libc))).bind fun r =>
            if ruleCheck .IPSEC r.1 then (rules libc dir .IPSEC fuel r.2).map (r.1 :: ·) else none := rfl
      rw [hstep, rule_printed hr]
      by_cases hkernel : IPSEC_MANUAL_REQID_MAX < r.reqid
      · rw [level_kernel hkernel, Option.map_some, Option.bind_some]
        split
        · rw [rules_offset, Option.map_none]
        · rfl
      · have hrest : ∃ x ∈ rs, IPSEC_MANUAL_REQID_MAX < x.reqid := by
          obtain ⟨x, hx, hlt⟩ := hreqid
          cases List.mem_cons.mp hx with
          | inl heq => exact absurd (heq ▸ hlt) hkernel
          | inr hx => exact ⟨x, hx, hlt⟩
        rw [level_manual hr (Nat.not_lt.mp hkernel), Option.map_some, Option.bind_some, if_pos hr.check,
          ih (fun x hx => h x (List.mem_cons_of_mem _ hx)) hrest, Option.map_none]

end Printed

/-! ### There and back -/

/-- The printed text is parsed to what was printed. -/
def RoundTrips (libc : Libc) (delimiter : Option Text) (p : Policy) : Prop :=
  ∃ text p', ipsecDumpPolicyWithports libc p delimiter = some text ∧ ipsecSetPolicy libc text = some p' ∧
    p'.dir = p.dir ∧ p'.type = p.type ∧ p'.priority = p.priority ∧ p'.requests = p.requests

/-- A priority that is not 0, requests in an `ipsec` policy only, each numbered as one
    may be by hand, and all of them in less than what two bytes count. -/
def Writable (p : Policy) : Prop :=
  p.priority ≠ 0 ∧ (p.type = .IPSEC ∨ p.requests = []) ∧
    (∀ r ∈ p.requests, r.reqid ≤ IPSEC_MANUAL_REQID_MAX) ∧ totalLen p.requests < 524288

/-- What holds of every policy that was parsed. -/
structure FromText (p : Policy) : Prop where
  len : p.len = totalLen p.requests / 8 % 65536
  priority_lt : p.priority < 4294967296
  dir : p.dir = .INBOUND ∨ p.dir = .OUTBOUND ∨ p.dir = .FWD
  requests : ∀ r ∈ p.requests, ruleCheck p.type r ∧ Numbered r.level r.reqid

section RoundTrip
variable {libc : Libc} {delimiter : Option Text} {p : Policy}

theorem ipsecSetPolicy_fromText {msg : Text} (h : ipsecSetPolicy libc msg = some p) : FromText p := by
  obtain ⟨spec, hspec, hrest⟩ := Option.bind_eq_some_iff.mp h
  obtain ⟨rs, hrs, rfl⟩ := Option.map_eq_some_iff.mp hrest
  obtain ⟨hlt, hdir⟩ := policySpec_inv hspec
  exact
    { len := rfl
      priority_lt := hlt
      dir := yylex_dirs msg hdir
      requests := rules_parsed hrs }

theorem Parsed.len_eight {r : Request} (h : Parsed libc r) : r.len % 8 = 0 := by
  have hcheck := h.check
  unfold Request.len REQUEST_LEN
  cases haddrs : r.addrs with
  | none => rfl
  | some pair =>
    obtain ⟨src, dst⟩ := pair
    simp only [ruleCheck, haddrs, ne_eq, not_true_eq_false, decide_false, Bool.false_or,
      Bool.and_eq_true] at hcheck
    have hsame := hcheck.2
    cases src with
    | inet =>
      cases dst with
      | inet => simp [Sockaddr.len]
      | inet6 => cases hsame
    | inet6 =>
      cases dst with
      | inet => cases hsame
      | inet6 => simp [Sockaddr.len]

theorem totalLen_eight {rs : List Request} (h : ∀ r ∈ rs, Parsed libc r) : totalLen rs % 8 = 0 := by
  have hsum : (rs.map Request.len).sum % 8 = 0 := by
    induction rs with
    | nil => rfl
    | cons r rs ih =>
      have hr := (h r List.mem_cons_self).len_eight
      have hrest := ih fun x hx => h x (List.mem_cons_of_mem _ hx)
      rw [List.map_cons, List.sum_cons]
      omega
  unfold totalLen POLICY_LEN
  omega

theorem ipsecSetPolicy_printed (hp : FromText p) (hdelim : Blanks (delimiter.getD [' '])) (rs : List Request)
    (hrs : ∀ r ∈ rs, Parsed libc r) :
    ipsecSetPolicy libc (headText p ++ requestsText libc (delimiter.getD [' ']) rs) =
      (rules libc p.dir p.type (rs.flatMap (requestTokens libc)).length (rs.flatMap (requestTokens libc))).map
        fun rs =>
          { len := totalLen rs / 8 % 65536
            type := p.type
            dir := p.dir
            priority := if p.priority = 0 then PRIORITY_DEFAULT else p.priority
            requests := rs } := by
  rw [ipsecSetPolicy, yylex_headText hp.dir (ends_requestsText hdelim rs), yylex_requestsText hdelim rs hrs,
    policySpec_printed p.dir p.type hp.priority_lt]
  rfl

/-- The requests that are counted are the ones that are printed. -/
theorem ipsecDump_counted (delimiter : Option Text) (hipsec : p.type = .IPSEC) (hparsed : ∀ r ∈ p.requests, Parsed libc r) :
    ipsecDumpPolicyWithports libc p delimiter =
      (countRequests (p.len * 8) POLICY_LEN p.requests).map fun rs =>
        headText p ++ requestsText libc (delimiter.getD [' ']) rs := by
  rw [ipsecDumpPolicyWithports, if_neg (not_not.mpr hipsec)]
  cases hcount : countRequests (p.len * 8) POLICY_LEN p.requests with
  | none => rfl
  | some rs =>
    obtain ⟨hsum, hbegin⟩ := countRequests_sum hcount
    have hdump := dumpRequests_eq (delimiter.getD [' ']) rs POLICY_LEN
      fun r hr => hparsed r (hbegin.subset hr)
    rw [Option.bind_some, ← hsum, hdump]
    rfl

theorem roundTrips_other (hp : FromText p) (htype : p.type ≠ .IPSEC) (hdelim : Blanks (delimiter.getD [' '])) :
    RoundTrips libc delimiter p ↔ p.priority ≠ 0 ∧ p.requests = [] := by
  have hdump : ipsecDumpPolicyWithports libc p delimiter = some (headText p) := if_pos htype
  have hparse := @ipsecSetPolicy_printed libc delimiter p hp hdelim [] (by simp)
  have htext : headText p ++ requestsText libc (delimiter.getD [' ']) [] = headText p := List.append_nil _
  rw [htext, List.flatMap_nil, List.length_nil, rules, Option.map_some] at hparse
  constructor
  · rintro ⟨text, p', htext, hp', -, -, hpriority, hrequests⟩
    obtain rfl := Option.some.inj (hdump.symm.trans htext)
    obtain rfl := Option.some.inj (hparse.symm.trans hp')
    refine ⟨?_, hrequests.symm⟩
    intro hzero
    dsimp only at hpriority
    rw [if_pos hzero, hzero] at hpriority
    exact absurd hpriority (by decide)
  · rintro ⟨hne, hnil⟩
    exact ⟨_, _, hdump, hparse, rfl, rfl, if_neg hne, hnil.symm⟩

theorem roundTrips_ipsec (hp : FromText p) (hipsec : p.type = .IPSEC) (hdelim : Blanks (delimiter.getD [' ']))
    (hparsed : ∀ r ∈ p.requests, Parsed libc r) :
    RoundTrips libc delimiter p ↔ p.priority ≠ 0 ∧
      (∀ r ∈ p.requests, r.reqid ≤ IPSEC_MANUAL_REQID_MAX) ∧ totalLen p.requests < 524288 := by
  have hdump := ipsecDump_counted delimiter hipsec hparsed
  constructor
  · rintro ⟨text, p', htext, hp', -, -, hpriority, hrequests⟩
    obtain ⟨rs, hcount, rfl⟩ := Option.map_eq_some_iff.mp (hdump.symm.trans htext)
    obtain ⟨hsum, hbegin⟩ := countRequests_sum hcount
    have hrs : ∀ r ∈ rs, Parsed libc r := fun r hr => hparsed r (hbegin.subset hr)
    rw [ipsecSetPolicy_printed hp hdelim rs hrs, hipsec] at hp'
    obtain ⟨rs', hread, rfl⟩ := Option.map_eq_some_iff.mp hp'
    dsimp only at hpriority hrequests
    have hmanual : ∀ r ∈ rs, r.reqid ≤ IPSEC_MANUAL_REQID_MAX := by
      intro r hr
      by_contra hlt
      rw [rules_kernel hrs ⟨r, hr, Nat.not_le.mp hlt⟩] at hread
      cases hread
    rw [rules_manual hrs hmanual p.dir (Nat.le_refl _)] at hread
    obtain rfl := Option.some.inj hread
    refine ⟨?_, ?_, ?_⟩
    · intro hzero
      rw [if_pos hzero, hzero] at hpriority
      exact absurd hpriority (by decide)
    · rw [← hrequests]
      exact hmanual
    · rw [← hrequests, totalLen, hsum, hp.len]
      omega
  · rintro ⟨hne, hmanual, hlen⟩
    have hwhole : p.len * 8 = totalLen p.requests := by
      have height := totalLen_eight hparsed
      rw [hp.len]
      omega
    rw [hwhole, totalLen, countRequests_all, Option.map_some] at hdump
    have hparse := ipsecSetPolicy_printed hp hdelim p.requests hparsed
    rw [hipsec, rules_manual hparsed hmanual p.dir (Nat.le_refl _), Option.map_some] at hparse
    exact ⟨_, _, hdump, hparse, rfl, hipsec.symm, if_neg hne, rfl⟩

/-- When a policy comes back from its text. -/
theorem roundTrip_iff {msg : Text} (hset : ipsecSetPolicy libc msg = some p)
    (hnumeric : ∀ r ∈ p.requests, ∀ src dst, r.addrs = some (src, dst) → libc.Prints src ∧ libc.Prints dst)
    (hdelim : Blanks (delimiter.getD [' '])) : RoundTrips libc delimiter p ↔ Writable p := by
  have hp := ipsecSetPolicy_fromText hset
  unfold Writable
  by_cases hipsec : p.type = .IPSEC
  · have hparsed : ∀ r ∈ p.requests, Parsed libc r := by
      intro r hr
      obtain ⟨hcheck, hlt, hunique⟩ := hp.requests r hr
      rw [hipsec] at hcheck
      exact
        { check := hcheck
          reqid_lt := hlt
          unique := hunique
          prints := hnumeric r hr }
    rw [roundTrips_ipsec hp hipsec hdelim hparsed]
    simp [hipsec]
  · rw [roundTrips_other hp hipsec hdelim]
    constructor
    · rintro ⟨hne, hnil⟩
      rw [hnil]
      exact ⟨hne, .inr rfl, by simp, by decide⟩
    · rintro ⟨hne, htype, -, -⟩
      exact ⟨hne, htype.resolve_left hipsec⟩

end RoundTrip

/-- Two hosts and their addresses. -/
def twoHosts : Libc where
  getnameinfo
    | .inet 0x0a000001 _ => some "10.0.0.1".toList
    | .inet 0x0a000002 _ => some "10.0.0.2".toList
    | _ => none
  getaddrinfo host port :=
    if host = "10.0.0.1".toList then some (.inet 0x0a000001 (atol (port.getD ['0'])).toUInt16)
    else if host = "10.0.0.2".toList then some (.inet 0x0a000002 (atol (port.getD ['0'])).toUInt16)
    else none

def tunnelText : Text := "in prio low + 5 ipsec esp/tunnel/10.0.0.1-10.0.0.2/unique:5 ah/transport//use".toList

def tunnelPolicy : Policy where
  len := 10
  type := .IPSEC
  dir := .INBOUND
  priority := 0xBFFFFFFB
  requests :=
    [{ proto := .ESP
       mode := .TUNNEL
       level := .UNIQUE
       reqid := 5
       addrs := some (.inet 0x0a000001 0, .inet 0x0a000002 0) },
      { proto := .AH
        mode := .TRANSPORT
        level := .USE
        reqid := 0
        addrs := none }]

theorem numericHost_address {host : Text} (haddr : ∀ c ∈ host, addrChar c) (hmark : ∃ c ∈ host, c = ':' ∨ c = '.')
    (hlen : host.length < INET6_ADDRSTRLEN + IFNAMSIZ) : NumericHost host :=
  ⟨host, [], (List.append_nil host).symm, haddr, hmark, .inl rfl, hlen⟩

theorem tunnelPolicy_roundTrips :
    ipsecSetPolicy twoHosts tunnelText = some tunnelPolicy ∧ RoundTrips twoHosts none tunnelPolicy := by
  have hset : ipsecSetPolicy twoHosts tunnelText = some tunnelPolicy := by decide +kernel
  refine ⟨hset, (roundTrip_iff hset ?_ ?_).mpr ?_⟩
  · intro r hr src dst haddrs
    have hfirst : src = .inet 0x0a000001 0 ∧ dst = .inet 0x0a000002 0 := by
      simp only [tunnelPolicy, List.mem_cons, List.not_mem_nil, or_false] at hr
      rcases hr with rfl | rfl
      · obtain ⟨rfl, rfl⟩ := Prod.mk.inj (Option.some.inj haddrs)
        exact ⟨rfl, rfl⟩
      · cases haddrs
    rw [hfirst.1, hfirst.2]
    constructor
    · exact ⟨"10.0.0.1".toList, rfl, numericHost_address (List.all_eq_true.mp rfl) ⟨'.', by simp, .inr rfl⟩
        (by decide), by decide +kernel⟩
    · exact ⟨"10.0.0.2".toList, rfl, numericHost_address (List.all_eq_true.mp rfl) ⟨'.', by simp, .inr rfl⟩
        (by decide), by decide +kernel⟩
  · exact blanks_space
  · unfold Writable
    decide +kernel

def numberedPolicy : Policy where
  len := 4
  type := .IPSEC
  dir := .OUTBOUND
  priority := 0x80000000
  requests :=
    [{ proto := .ESP
       mode := .TRANSPORT
       level := .UNIQUE
       reqid := 20000
       addrs := none }]

/-- A number that is not set by hand is printed behind a `#`, which the scanner does
    not know. -/
theorem kernel_reqid_lost :
    ¬∀ (libc : Libc) (msg : Text) (p : Policy) (delimiter : Option Text), ipsecSetPolicy libc msg = some p →
      (∀ r ∈ p.requests, ∀ src dst, r.addrs = some (src, dst) → libc.Prints src ∧ libc.Prints dst) →
      Blanks (delimiter.getD [' ']) → RoundTrips libc delimiter p := by
  intro hall
  have hset : ipsecSetPolicy twoHosts "out ipsec esp/transport//unique:20000".toList =
      some numberedPolicy := by
    decide +kernel
  have hdump : ipsecDumpPolicyWithports twoHosts numberedPolicy none =
      some "out prio def ipsec esp/transport//unique#20000".toList := by
    decide +kernel
  have hnone : ipsecSetPolicy twoHosts "out prio def ipsec esp/transport//unique#20000".toList = none := by
    decide +kernel
  obtain ⟨text, p', htext, hp', -⟩ := hall _ _ _ none hset (by simp [numberedPolicy]) blanks_space
  obtain rfl := Option.some.inj (hdump.symm.trans htext)
  exact absurd (hnone.symm.trans hp') (by simp)

end WanStack.Libipsec
