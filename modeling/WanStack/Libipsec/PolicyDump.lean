import WanStack.Libipsec.PolicyScan

set_option autoImplicit false

/-!
# A printed policy as tokens

The text of `ipsec_dump_policy_withports`, written out, and what the scanner makes of it.
-/
namespace WanStack.Libipsec
open Scanner

/-! ### The direction, the priority and the type -/

/-- The constant that a priority is closest to, and its word. -/
def band (priority : ℕ) : ℕ × Text :=
  if priority < PRIORITY_DEFAULT / 4 * 3 then (PRIORITY_HIGH, "high".toList)
  else if priority < PRIORITY_DEFAULT / 4 * 5 then (PRIORITY_DEFAULT, "def".toList)
  else (PRIORITY_LOW, "low".toList)

/-- What stands between the direction and the type. -/
def prioText (priority : ℕ) : Text :=
  if priority = 0 then []
  else if priority = (band priority).1 then "prio ".toList ++ (band priority).2 ++ [' ']
  else if (band priority).1 < priority then
    "prio ".toList ++ (band priority).2 ++ ' ' :: '-' :: ' ' :: (decimal (priority - (band priority).1) ++ [' '])
  else "prio ".toList ++ (band priority).2 ++ ' ' :: '+' :: ' ' :: (decimal ((band priority).1 - priority) ++ [' '])

def prioTokens (priority : ℕ) : List Token :=
  if priority = 0 then []
  else if priority = (band priority).1 then [.PRIORITY, .PRIO_BASE (band priority).1]
  else if (band priority).1 < priority then
    [.PRIORITY, .PRIO_BASE (band priority).1, .HYPHEN, .PRIO_OFFSET (decimal (priority - (band priority).1))]
  else [.PRIORITY, .PRIO_BASE (band priority).1, .PLUS, .PRIO_OFFSET (decimal ((band priority).1 - priority))]

theorem closest_eq {priority : ℕ} (h : priority ≠ 0) :
    closest priority = ((priority : ℤ) - (band priority).1, "prio ".toList ++ (band priority).2) := by
  unfold closest band
  rw [if_neg h]
  split
  · rfl
  · split <;> rfl

theorem yylex_band (priority : ℕ) {rest : Text} (hrest : Ends rest) :
    yylex ((band priority).2 ++ rest) = .PRIO_BASE (band priority).1 :: yylex rest := by
  unfold band
  split
  · exact yylex_high hrest
  · split
    · exact yylex_def hrest
    · exact yylex_low hrest

theorem ends_space (rest : Text) : Ends (' ' :: rest) := ends_cons rest (by decide) (by decide)

theorem yylex_space (rest : Text) : yylex (' ' :: rest) = yylex rest := yylex_blank rest (by decide)

/-- The words of the priority, and what is put behind them. -/
theorem yylex_prioBand (priority : ℕ) (rest : Text) :
    yylex ("prio ".toList ++ ((band priority).2 ++ ' ' :: rest)) =
      .PRIORITY :: .PRIO_BASE (band priority).1 :: yylex rest := by
  have hwords : "prio ".toList ++ ((band priority).2 ++ ' ' :: rest) =
      "prio".toList ++ ' ' :: ((band priority).2 ++ ' ' :: rest) := rfl
  rw [hwords, yylex_prio (ends_space _), yylex_space, yylex_band priority (ends_space _), yylex_space]

theorem yylex_offset (n : ℕ) (rest : Text) :
    yylex (decimal n ++ ' ' :: rest) = .PRIO_OFFSET (decimal n) :: yylex rest := by
  rw [yylex_decimal (ends_space _), yylex_space]

theorem headText_eq (p : Policy) :
    headText p = dirStr p.dir ++ ' ' :: (prioText p.priority ++ policyStr p.type) := by
  by_cases hzero : p.priority = 0
  · simp [headText, prioText, closest, hzero]
  · unfold headText prioText
    rw [closest_eq hzero, if_neg hzero]
    generalize band p.priority = b
    dsimp only
    rcases Nat.lt_trichotomy b.1 p.priority with hlt | heq | hgt
    · have hpos : (0 : ℤ) < p.priority - b.1 := by omega
      have hne : (p.priority : ℤ) - b.1 ≠ 0 := by omega
      have hnat : ((p.priority : ℤ) - b.1).toNat = p.priority - b.1 := by omega
      rw [if_pos hpos, if_neg (Nat.ne_of_gt hlt), if_pos hlt]
      dsimp only
      rw [if_pos hne, hnat]
      simp
    · have hneg : ¬(0 : ℤ) < p.priority - b.1 := by omega
      have hnot : ¬-((p.priority : ℤ) - b.1) ≠ 0 := by omega
      rw [if_neg hneg, if_pos heq.symm]
      dsimp only
      rw [if_neg hnot, if_pos (by simp)]
      simp
    · have hneg : ¬(0 : ℤ) < p.priority - b.1 := by omega
      have hne : -((p.priority : ℤ) - b.1) ≠ 0 := by omega
      have hnat : (-((p.priority : ℤ) - b.1)).toNat = b.1 - p.priority := by omega
      rw [if_neg hneg, if_neg (Nat.ne_of_lt hgt), if_neg (Nat.lt_asymm hgt)]
      dsimp only
      rw [if_pos hne, hnat]
      simp

theorem yylex_prioText (priority : ℕ) (rest : Text) :
    yylex (prioText priority ++ rest) = prioTokens priority ++ yylex rest := by
  unfold prioText prioTokens
  split
  · rfl
  · split
    · simp only [List.append_assoc, List.cons_append, List.nil_append]
      exact yylex_prioBand priority rest
    · split
      · simp only [List.append_assoc, List.cons_append, List.nil_append]
        rw [yylex_prioBand, yylex_hyphen, yylex_space, yylex_offset]
      · simp only [List.append_assoc, List.cons_append, List.nil_append]
        rw [yylex_prioBand, yylex_plus, yylex_space, yylex_offset]

theorem yylex_headText {p : Policy} (hdir : p.dir = .INBOUND ∨ p.dir = .OUTBOUND ∨ p.dir = .FWD)
    {rest : Text} (hrest : Ends rest) :
    yylex (headText p ++ rest) = .DIR p.dir :: (prioTokens p.priority ++ .ACTION p.type :: yylex rest) := by
  rw [headText_eq, List.append_assoc, List.cons_append, List.append_assoc, yylex_dir (ends_space _) p.dir hdir,
    yylex_space, yylex_prioText, yylex_policy hrest]

/-! ### The requests -/

section Requests
variable (libc : Libc)

/-- The C library writes an address as numbers and reads it back. -/
def Libc.Prints (a : Sockaddr) : Prop :=
  ∃ host, libc.getnameinfo a = some host ∧ NumericHost host ∧
    libc.getaddrinfo host (some (decimal a.port.toNat)) = some a

def hostText (a : Sockaddr) : Text := (libc.getnameinfo a).getD []

def sockText (a : Sockaddr) : Text := hostText libc a ++ '[' :: (decimal a.port.toNat ++ [']'])

def abufText : Option (Sockaddr × Sockaddr) → Text
  | none => []
  | some (src, dst) => sockText libc src ++ '-' :: sockText libc dst

def requestText (r : Request) : Text :=
  (protoStr r.proto).getD [] ++ '/' :: (modeStr r.mode ++ '/' :: (abufText libc r.addrs ++
    '/' :: (levelStr r.level ++ reqidText r.reqid)))

def sockTokens (a : Sockaddr) : List Token := [.IPADDRESS (hostText libc a), .PORT (decimal a.port.toNat)]

def addrTokens : Option (Sockaddr × Sockaddr) → List Token
  | none => []
  | some (src, dst) => sockTokens libc src ++ .HYPHEN :: sockTokens libc dst

/-- The level; behind a `#`, the number is a token of its own. -/
def levelTokens (r : Request) : List Token :=
  if r.reqid = 0 then [.LEVEL r.level]
  else if IPSEC_MANUAL_REQID_MAX < r.reqid then [.LEVEL r.level, .PRIO_OFFSET (decimal r.reqid)]
  else [.LEVEL_SPECIFY (decimal r.reqid)]

def requestTokens (r : Request) : List Token :=
  .PROTOCOL r.proto :: .SLASH :: .MODE r.mode :: .SLASH :: (addrTokens libc r.addrs ++ .SLASH :: levelTokens r)

/-- A request of an `ipsec` policy that was parsed. -/
structure Parsed (r : Request) : Prop where
  check : ruleCheck .IPSEC r
  reqid_lt : r.reqid < 4294967296
  unique : r.reqid ≠ 0 → r.level = .UNIQUE
  prints : ∀ src dst, r.addrs = some (src, dst) → libc.Prints src ∧ libc.Prints dst

variable {libc}

theorem Libc.Prints.host {a : Sockaddr} (h : libc.Prints a) :
    libc.getnameinfo a = some (hostText libc a) ∧ NumericHost (hostText libc a) := by
  obtain ⟨host, hname, hhost, -⟩ := h
  rw [hostText, hname]
  exact ⟨rfl, hhost⟩

theorem Libc.Prints.back {a : Sockaddr} (h : libc.Prints a) :
    libc.getaddrinfo (hostText libc a) (some (decimal a.port.toNat)) = some a := by
  obtain ⟨host, hname, -, hback⟩ := h
  rw [hostText, hname]
  exact hback

theorem yylex_sockText {a : Sockaddr} (h : libc.Prints a) (rest : Text) :
    yylex (sockText libc a ++ rest) = sockTokens libc a ++ yylex rest := by
  have htext : sockText libc a ++ rest = hostText libc a ++ '[' :: (decimal a.port.toNat ++ ']' :: rest) := by
    simp [sockText]
  rw [htext, yylex_host h.host.2, yylex_port]
  rfl

theorem ends_slash (rest : Text) : Ends ('/' :: rest) := ends_cons rest (by decide) (by decide)

theorem yylex_levelText {r : Request} (h : Parsed libc r) {rest : Text} (hrest : Ends rest) :
    yylex (levelStr r.level ++ (reqidText r.reqid ++ rest)) = levelTokens r ++ yylex rest := by
  unfold reqidText levelTokens
  split
  · exact yylex_level hrest r.level
  · next hne =>
    rw [h.unique hne]
    split
    · rw [List.cons_append, yylex_level (ends_cons _ (by decide) (by decide)), yylex_sharp, yylex_decimal hrest]
      rfl
    · have htext : levelStr .UNIQUE ++ (':' :: decimal r.reqid ++ rest) =
          "unique:".toList ++ decimal r.reqid ++ rest := rfl
      rw [htext, yylex_unique hrest]
      rfl

theorem Parsed.protoStr {r : Request} (h : Parsed libc r) :
    WanStack.Libipsec.protoStr r.proto = some ((WanStack.Libipsec.protoStr r.proto).getD []) := by
  have hcheck := h.check
  cases hproto : r.proto with
  | IP => simp [ruleCheck, hproto] at hcheck
  | ESP => rfl
  | AH => rfl
  | IPCOMP => rfl

theorem Parsed.mode {r : Request} (h : Parsed libc r) : r.mode = .TRANSPORT ∨ r.mode = .TUNNEL := by
  have hcheck := h.check
  simp only [ruleCheck, ne_eq, not_true_eq_false, decide_false, Bool.false_or, Bool.and_eq_true,
    Bool.or_eq_true, decide_eq_true_eq] at hcheck
  exact hcheck.1.2

theorem yylex_abufText {r : Request} (h : Parsed libc r) (rest : Text) :
    yylex (abufText libc r.addrs ++ rest) = addrTokens libc r.addrs ++ yylex rest := by
  cases haddrs : r.addrs with
  | none => rfl
  | some pair =>
    obtain ⟨src, dst⟩ := pair
    obtain ⟨hsrc, hdst⟩ := h.prints src dst haddrs
    have htext : abufText libc (some (src, dst)) ++ rest = sockText libc src ++ ('-' :: (sockText libc dst ++ rest)) := by
      simp [abufText]
    rw [htext, yylex_sockText hsrc, yylex_hyphen, yylex_sockText hdst]
    simp [addrTokens]

theorem yylex_requestText {r : Request} (h : Parsed libc r) {rest : Text} (hrest : Ends rest) :
    yylex (requestText libc r ++ rest) = requestTokens libc r ++ yylex rest := by
  unfold requestText requestTokens
  simp only [List.append_assoc, List.cons_append]
  rw [yylex_proto (ends_slash _) h.protoStr, yylex_slash, yylex_mode (ends_slash _) r.mode h.mode, yylex_slash,
    yylex_abufText h, yylex_slash, yylex_levelText h hrest]

/-! ### Their lengths -/

theorem decimal_length {n k : ℕ} (hk : 0 < k) (hn : n < 10 ^ k) : (decimal n).length ≤ k :=
  (Nat.length_toDigits_le_iff (by decide) hk).mpr hn

theorem sockText_length {a : Sockaddr} (h : libc.Prints a) : (sockText libc a).length ≤ 68 := by
  have hhost : (hostText libc a).length < INET6_ADDRSTRLEN + IFNAMSIZ := by
    obtain ⟨addr, scope, -, -, -, -, hlen⟩ := h.host.2
    exact hlen
  have hport : (decimal a.port.toNat).length ≤ 5 := decimal_length (by decide) (by have := a.port.toNat_lt; omega)
  simp only [sockText, List.length_append, List.length_cons, List.length_nil, INET6_ADDRSTRLEN,
    IFNAMSIZ] at hhost ⊢
  omega

theorem setAddress_eq {a : Sockaddr} (h : libc.Prints a) : setAddress libc a = some (sockText libc a) := by
  have hlen := sockText_length h
  have hshort : (sockText libc a).take (NI_MAXHOST - 1) = sockText libc a := List.take_of_length_le (by
    unfold NI_MAXHOST
    omega)
  rw [setAddress, h.host.1, Option.map_some, snprintf, List.append_assoc, List.append_assoc]
  exact congrArg some hshort

theorem setAddresses_eq {r : Request} (h : Parsed libc r) :
    setAddresses libc r.addrs = some (abufText libc r.addrs) := by
  cases haddrs : r.addrs with
  | none => rfl
  | some pair =>
    obtain ⟨src, dst⟩ := pair
    obtain ⟨hsrc, hdst⟩ := h.prints src dst haddrs
    have hsrclen := sockText_length hsrc
    have hdstlen := sockText_length hdst
    rw [setAddresses, setAddress_eq hsrc, setAddress_eq hdst]
    dsimp only
    rw [if_neg (by unfold NI_MAXHOST; omega), List.append_assoc]
    rfl

theorem requestText_length {r : Request} (h : Parsed libc r) : (requestText libc r).length ≤ 1023 := by
  have hproto : ((WanStack.Libipsec.protoStr r.proto).getD []).length ≤ 6 := by cases r.proto <;> decide
  have hmode : (modeStr r.mode).length ≤ 9 := by cases r.mode <;> decide
  have hlevel : (levelStr r.level).length ≤ 7 := by cases r.level <;> decide
  have hreqid : (reqidText r.reqid).length ≤ 11 := by
    have hdecimal : (decimal r.reqid).length ≤ 10 := decimal_length (by decide) (by have := h.reqid_lt; omega)
    unfold reqidText
    split
    · simp
    · rw [List.length_cons]
      omega
  have habuf : (abufText libc r.addrs).length ≤ 137 := by
    cases haddrs : r.addrs with
    | none => simp [abufText]
    | some pair =>
      obtain ⟨src, dst⟩ := pair
      obtain ⟨hsrc, hdst⟩ := h.prints src dst haddrs
      have hsrclen := sockText_length hsrc
      have hdstlen := sockText_length hdst
      simp only [abufText, List.length_append, List.length_cons]
      omega
  simp only [requestText, List.length_append, List.length_cons]
  omega

theorem dumpIpsecrequest_eq {r : Request} (h : Parsed libc r) {bound : ℕ} (hbound : r.len ≤ bound) :
    dumpIpsecrequest libc r bound = some (requestText libc r) := by
  have hlen := requestText_length h
  rw [dumpIpsecrequest, if_neg (Nat.not_lt.mpr hbound), h.protoStr, setAddresses_eq h]
  dsimp only
  rw [snprintf]
  simp only [List.append_assoc, List.cons_append, List.nil_append]
  exact congrArg some (List.take_of_length_le hlen)

end Requests

/-! ### All of them -/

section Text
variable {libc : Libc} {delimiter : Text}

theorem Request.len_pos (r : Request) : 0 < r.len := by
  unfold Request.len REQUEST_LEN
  omega

/-- The requests that are counted end where the extension does. -/
theorem countRequests_sum {extlen off : ℕ} {rs counted : List Request}
    (h : countRequests extlen off rs = some counted) :
    off + (counted.map Request.len).sum = extlen ∧ counted <+: rs := by
  induction rs generalizing off counted with
  | nil =>
    unfold countRequests at h
    split at h
    · next hend =>
      obtain rfl := Option.some.inj h
      exact ⟨hend, List.prefix_refl _⟩
    · cases h
  | cons r rs ih =>
    unfold countRequests at h
    split at h
    · obtain ⟨tail, htail, rfl⟩ := Option.map_eq_some_iff.mp h
      obtain ⟨hsum, hprefix⟩ := ih htail
      refine ⟨?_, (List.prefix_cons_inj r).mpr hprefix⟩
      rw [List.map_cons, List.sum_cons]
      omega
    · split at h
      · next hend =>
        obtain rfl := Option.some.inj h
        exact ⟨hend, List.nil_prefix⟩
      · cases h

theorem countRequests_all (rs : List Request) (off : ℕ) :
    countRequests (off + (rs.map Request.len).sum) off rs = some rs := by
  induction rs generalizing off with
  | nil => simp [countRequests]
  | cons r rs ih =>
    have hpos := r.len_pos
    have hlt : off < off + ((r :: rs).map Request.len).sum := by
      rw [List.map_cons, List.sum_cons]
      omega
    rw [countRequests, if_pos hlt, List.map_cons, List.sum_cons, ← Nat.add_assoc, ih, Option.map_some]

def requestsText (libc : Libc) (delimiter : Text) (rs : List Request) : Text :=
  rs.flatMap fun r => delimiter ++ requestText libc r

theorem dumpRequests_eq (delimiter : Text) (rs : List Request) (off : ℕ) (h : ∀ r ∈ rs, Parsed libc r) :
    dumpRequests libc delimiter (off + (rs.map Request.len).sum) off rs = some (requestsText libc delimiter rs) := by
  induction rs generalizing off with
  | nil => rfl
  | cons r rs ih =>
    rw [List.map_cons, List.sum_cons]
    have hbound : r.len ≤ off + (r.len + (rs.map Request.len).sum) - off := by omega
    rw [dumpRequests, dumpIpsecrequest_eq (h r List.mem_cons_self) hbound, Option.bind_some, ← Nat.add_assoc,
      ih (off + r.len) fun x hx => h x (List.mem_cons_of_mem _ hx)]
    rfl

theorem ends_requestsText (hdelimiter : Blanks delimiter) (rs : List Request) :
    Ends (requestsText libc delimiter rs) := by
  cases rs with
  | nil => exact ends_nil
  | cons r rs =>
    obtain ⟨c, cs, rfl⟩ := List.exists_cons_of_ne_nil hdelimiter.1
    have hc := hdelimiter.2 c List.mem_cons_self
    rcases hc with hblank | rfl
    · exact ends_cons _ (blank_host hblank) (by rintro rfl; exact absurd hblank (by decide))
    · exact ends_cons _ (by decide) (by decide)

theorem yylex_requestsText (hdelimiter : Blanks delimiter) (rs : List Request) (h : ∀ r ∈ rs, Parsed libc r) :
    yylex (requestsText libc delimiter rs) = rs.flatMap (requestTokens libc) := by
  induction rs with
  | nil => rfl
  | cons r rs ih =>
    have hsplit : requestsText libc delimiter (r :: rs) =
        delimiter ++ (requestText libc r ++ requestsText libc delimiter rs) := by
      simp [requestsText]
    rw [hsplit, yylex_blanks hdelimiter.2, yylex_requestText (h r List.mem_cons_self) (ends_requestsText hdelimiter rs),
      ih fun x hx => h x (List.mem_cons_of_mem _ hx)]
    rfl

end Text

end WanStack.Libipsec
