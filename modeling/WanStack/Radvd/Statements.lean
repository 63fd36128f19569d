import WanStack.Radvd.ReadinConfig

set_option autoImplicit false

/-!
# The statements of an interface block

A block as a list of statements, what each of them does to the interface, and the
parser going over their tokens.
-/
namespace WanStack.Radvd.Gram
open Aftr (Buf)

/-- A keyword, a value and what they make. -/
structure Setting (α : Type) (of : Token → Token → Option α) where
  keyword : Token
  value : Token
  parm : α
  parm_eq : of keyword value = some parm

section Setting
variable {α : Type} {of : Token → Token → Option α}

def Setting.toks (s : Setting α of) : List Token := [s.keyword, s.value, .SEMICOLON]

def settingToks (ss : List (Setting α of)) : List Token := ss.flatMap Setting.toks

/-- The actions of the statements of a definition, one after the other. -/
def applied {β : Type} (action : α → β → β) (ss : List (Setting α of)) (x : β) : β :=
  ss.foldl (fun x s => action s.parm x) x

end Setting

/-- What `ifaceparam` derives. -/
inductive Statement where
  | ifaceval (s : Setting IfaceVal ifacevalOf)
  | prefixdef (a : In6Addr) (n : UInt32) (body : Option (List (Setting PrefixParm prefixparmOf)))
  | clientslist (a : In6Addr) (as : List In6Addr)
  | routedef (a : In6Addr) (n : UInt32) (body : List (Setting RouteParm routeparmOf))
  | rdnssdef (a : In6Addr) (as : List In6Addr) (body : List (Setting RdnssParm rdnssparmOf))
  | dnssldef (s : Buf) (ss : List Buf) (body : List (Setting DnsslParm dnsslparmOf))
  | lowpancodef (body : List (Setting LowpancoParm lowpancoparmOf))
  | abrodef (a : In6Addr) (len : Option UInt32) (body : List (Setting AbroParm abroparmOf))
  | rasrcaddresslist (a : In6Addr) (as : List In6Addr)

/-- `{`, the statements, `}` and `;`. -/
def braced {α : Type} {of : Token → Token → Option α} (body : List (Setting α of)) : List Token :=
  .LBRACE :: (settingToks body ++ [.RBRACE, .SEMICOLON])

def addrToks (as : List In6Addr) : List Token := as.flatMap fun a => [.IPV6ADDR a, .SEMICOLON]

def Statement.toks : Statement → List Token
  | .ifaceval s => s.toks
  | .prefixdef a n none => [.T_PREFIX, .IPV6ADDR a, .SLASH, .NUMBER n, .SEMICOLON]
  | .prefixdef a n (some body) => .T_PREFIX :: .IPV6ADDR a :: .SLASH :: .NUMBER n :: braced body
  | .clientslist a as => .T_CLIENTS :: .LBRACE :: (addrToks (a :: as) ++ [.RBRACE, .SEMICOLON])
  | .routedef a n body => .T_ROUTE :: .IPV6ADDR a :: .SLASH :: .NUMBER n :: braced body
  | .rdnssdef a as body => .T_RDNSS :: ((a :: as).map .IPV6ADDR ++ braced body)
  | .dnssldef s ss body => .T_DNSSL :: ((s :: ss).map .STRING ++ braced body)
  | .lowpancodef body => .T_LOWPANCO :: braced body
  | .abrodef a none body => .T_ABRO :: .IPV6ADDR a :: braced body
  | .abrodef a (some n) body => .T_ABRO :: .IPV6ADDR a :: .SLASH :: .NUMBER n :: braced body
  | .rasrcaddresslist a as => .T_RASRCADDRESS :: .LBRACE :: (addrToks (a :: as) ++ [.RBRACE, .SEMICOLON])

/-- What a statement puts into a list of the interface. -/
inductive Entry where
  | pfx (p : AdvPrefix)
  | client (a : In6Addr)
  | route (r : AdvRoute)
  | rdnss (r : AdvRDNSS)
  | dnssl (d : AdvDNSSL)
  | lowpanco (l : AdvLowpanCo)
  | abro (a : AdvAbro)
  | rasrc (a : In6Addr)

/-- `ADD_TO_LL`. -/
def add (iface : IfaceConf) : Entry → IfaceConf
  | .pfx p => { iface with AdvPrefixList := iface.AdvPrefixList ++ [p] }
  | .client a => { iface with ClientList := iface.ClientList ++ [a] }
  | .route r => { iface with AdvRouteList := iface.AdvRouteList ++ [r] }
  | .rdnss r => { iface with AdvRDNSSList := iface.AdvRDNSSList ++ [r] }
  | .dnssl d => { iface with AdvDNSSLList := iface.AdvDNSSLList ++ [d] }
  | .lowpanco l => { iface with AdvLowpanCoList := iface.AdvLowpanCoList ++ [l] }
  | .abro a => { iface with AdvAbroList := iface.AdvAbroList ++ [a] }
  | .rasrc a => { iface with AdvRASrcAddressList := iface.AdvRASrcAddressList ++ [a] }

def prefixMade (a : In6Addr) (n : UInt32) (body : List (Setting PrefixParm prefixparmOf)) : Option AdvPrefix :=
  if MAX_PrefixLen < n.toNat then none
  else
    let p := applied prefixparms body { prefixInitDefaults with Prefix := a, PrefixLen := n.toUInt8 }
    if p.AdvValidLifetime < p.AdvPreferredLifetime then none
    else if p.if6 ≠ [] ∧ p.PrefixLen ≠ 64 then none
    else some p

def routeMade (MaxRtrAdvInterval : ℚ) (a : In6Addr) (n : UInt32) (body : List (Setting RouteParm routeparmOf)) :
    Option AdvRoute :=
  if MAX_PrefixLen < n.toNat then none
  else some (applied routeparms body { routeInitDefaults MaxRtrAdvInterval with Prefix := a, PrefixLen := n.toUInt8 })

def addAddrs (r : AdvRDNSS) : List In6Addr → Option AdvRDNSS
  | [] => some r
  | a :: as => (addAddr a r).bind fun r => addAddrs r as

def rdnssMade (MaxRtrAdvInterval : ℚ) (as : List In6Addr) (body : List (Setting RdnssParm rdnssparmOf)) :
    Option AdvRDNSS :=
  (addAddrs (rdnssInitDefaults MaxRtrAdvInterval) as).map (applied (rdnssparms MaxRtrAdvInterval) body)

def dnsslMade (MaxRtrAdvInterval : ℚ) (ss : List Buf) (body : List (Setting DnsslParm dnsslparmOf)) :
    Option AdvDNSSL :=
  if ss.all (·.all suffixChar) then
    some (applied (dnsslparms MaxRtrAdvInterval) body
      { dnsslInitDefaults MaxRtrAdvInterval with AdvDNSSLSuffixes := ss })
  else none

/-- The entries a statement adds where the interval seen so far is `MaxRtrAdvInterval`;
    `none` where an action aborts. -/
def Statement.made (MaxRtrAdvInterval : ℚ) : Statement → Option (List Entry)
  | .ifaceval _ => some []
  | .prefixdef a n body => (prefixMade a n (body.getD [])).map fun p => [.pfx p]
  | .clientslist a as => some ((a :: as).reverse.map .client)
  | .routedef a n body => (routeMade MaxRtrAdvInterval a n body).map fun r => [.route r]
  | .rdnssdef a as body => (rdnssMade MaxRtrAdvInterval (a :: as) body).map fun r => [.rdnss r]
  | .dnssldef s ss body => (dnsslMade MaxRtrAdvInterval (s :: ss) body).map fun d => [.dnssl d]
  | .lowpancodef body =>
    some [.lowpanco (applied lowpancoparms body
      { ContextLength := 0, ContextCompressionFlag := 0, AdvContextID := 0, AdvLifeTime := 0, AdvContextPrefix := zeroAddr })]
  | .abrodef a _ body =>
    some [.abro (applied abroparms body { Version := (0, 0), ValidLifeTime := 0, LBRaddress := a })]
  | .rasrcaddresslist a as => some ((a :: as).reverse.map .rasrc)

def Statement.set (iface : IfaceConf) : Statement → IfaceConf
  | .ifaceval s => Gram.ifaceval s.parm iface
  | _ => iface

/-- What a statement does to the interface. -/
def Statement.exec (iface : IfaceConf) (s : Statement) : Option IfaceConf :=
  (s.made iface.MaxRtrAdvInterval).map fun es => es.foldl add (s.set iface)

def execs (iface : IfaceConf) : List Statement → Option IfaceConf
  | [] => some iface
  | s :: ss => (s.exec iface).bind fun iface => execs iface ss

/-! ### The parser on a statement -/

/-- Between two statements of an interface. -/
structure At (p : Parser) (iface : IfaceConf) : Prop where
  place : p.place = .params .iface
  iface_eq : p.iface = some iface
  rdnss : p.rdnss = none
  dnssl : p.dnssl = none

theorem ifacevalOf_keyword {k t : Token} {v : IfaceVal} (h : ifacevalOf k t = some v) : k ∈ keywords .iface := by
  unfold ifacevalOf at h
  split at h <;> first | cases h | simp [keywords]

theorem parmOf_keyword {b : Block} {k t : Token} {v : Parm} (h : parmOf b k t = some v) : k ∈ keywords b := by
  cases b with
  | iface =>
    obtain ⟨v, hv, -⟩ := Option.map_eq_some_iff.mp h
    exact ifacevalOf_keyword hv
  | pfx =>
    obtain ⟨v, hv, -⟩ := Option.map_eq_some_iff.mp h
    unfold prefixparmOf at hv
    split at hv <;> first | cases hv | simp [keywords]
  | route =>
    obtain ⟨v, hv, -⟩ := Option.map_eq_some_iff.mp h
    unfold routeparmOf at hv
    split at hv <;> first | cases hv | simp [keywords]
  | rdnss =>
    obtain ⟨v, hv, -⟩ := Option.map_eq_some_iff.mp h
    unfold rdnssparmOf at hv
    split at hv <;> first | cases hv | simp [keywords]
  | dnssl =>
    obtain ⟨v, hv, -⟩ := Option.map_eq_some_iff.mp h
    unfold dnsslparmOf at hv
    split at hv <;> first | cases hv | simp [keywords]
  | lowpanco =>
    obtain ⟨v, hv, -⟩ := Option.map_eq_some_iff.mp h
    unfold lowpancoparmOf at hv
    split at hv <;> first | cases hv | simp [keywords]
  | abro =>
    obtain ⟨v, hv, -⟩ := Option.map_eq_some_iff.mp h
    unfold abroparmOf at hv
    split at hv <;> first | cases hv | simp [keywords]

/-- A keyword of a block is taken by it. -/
theorem step_keyword {p : Parser} {b : Block} {k : Token} (hp : p.place = .params b) (hk : k ∈ keywords b) :
    step p k = p.goto (.keyword b k) := by
  unfold step
  rw [hp]
  cases b with
  | iface =>
    dsimp only
    unfold ifaceparam
    split
    case h_10 => exact if_pos hk
    all_goals exact absurd hk (by decide)
  | pfx | route | rdnss | dnssl | lowpanco | abro =>
    dsimp only
    unfold defparam
    split
    · exact absurd hk (by decide)
    · exact if_pos hk

theorem parm_goto (v : Parm) (p : Parser) (place place' : Place) :
    (parm v (p.goto place)).goto place' = (parm v p).goto place' := by
  cases v <;> rfl

theorem parse_setting {p : Parser} {b : Block} {k t : Token} {v : Parm} (hp : p.place = .params b)
    (hv : parmOf b k t = some v) : parse p [k, t, .SEMICOLON] = (parm v p).goto (.params b) := by
  have hvalue : step (p.goto (.keyword b k)) t = (p.goto (.keyword b k)).goto (.value b v) := by
    have hplace : (p.goto (.keyword b k)).place = .keyword b k := rfl
    unfold step
    rw [hplace]
    dsimp only
    rw [hv]
  rw [parse_cons, parse_cons, step_keyword hp (parmOf_keyword hv), hvalue]
  exact parm_goto v p _ _

section Body
variable {α β : Type} {of : Token → Token → Option α} (b : Block) (make : α → Parm) (action : α → β → β)
  (put : Parser → β → Parser)

/-- The statements of a definition, where `put` is the parser that holds what is being
    defined. -/
theorem parse_body (hof : ∀ k t v, of k t = some v → parmOf b k t = some (make v))
    (hput : ∀ p x v, (parm (make v) (put p x)).goto (.params b) = put p (action v x))
    (hplace : ∀ p x, (put p x).place = .params b) (p : Parser) (ss : List (Setting α of)) (x : β) :
    parse (put p x) (settingToks ss) = put p (applied action ss x) := by
  induction ss generalizing x with
  | nil => rfl
  | cons s ss ih =>
    have hfirst : parse (put p x) s.toks = put p (action s.parm x) := by
      rw [← hput p x s.parm]
      exact parse_setting (hplace p x) (hof _ _ _ s.parm_eq)
    change parse (put p x) (s.toks ++ settingToks ss) = _
    rw [parse_append, hfirst]
    exact ih (action s.parm x)

theorem parse_braced (hb : b ≠ .iface) (hof : ∀ k t v, of k t = some v → parmOf b k t = some (make v))
    (hput : ∀ p x v, (parm (make v) (put p x)).goto (.params b) = put p (action v x))
    (hplace : ∀ p x, (put p x).place = .params b) (p q : Parser) (x : β) (hq : step q .LBRACE = put p x)
    (ss : List (Setting α of)) :
    parse q (braced ss) = definition b ((put p (applied action ss x)).goto (.defclose b)) := by
  have hclose : ∀ q : Parser, q.place = .params b →
      parse q [Token.RBRACE, .SEMICOLON] = definition b (q.goto (.defclose b)) := by
    intro q hq
    have hbrace : step q .RBRACE = q.goto (.defclose b) := by
      unfold step
      rw [hq]
      cases b <;> first | exact absurd rfl hb | rfl
    rw [parse_cons, hbrace]
    rfl
  change parse q (Token.LBRACE :: (settingToks ss ++ [Token.RBRACE, .SEMICOLON])) = _
  rw [parse_cons, hq, parse_append, parse_body b make action put hof hput hplace]
  exact hclose _ (hplace _ _)

end Body

/-- The suffixes read so far. -/
def suffixed (MaxRtrAdvInterval : ℚ) (p : Parser) (ss : List Buf) : Parser :=
  { p with
    dnssl := some { dnsslInitDefaults MaxRtrAdvInterval with AdvDNSSLSuffixes := ss }
    place := .dnsslsuffixes true }

/-- What a statement leaves behind: the interface it made, or an error. -/
def Leaves (q : Parser) (result : Option IfaceConf) : Prop :=
  match result with
  | none => q.place = .failed
  | some iface => At q iface

theorem parse_addrs (p : Parser) (l : AddrList) (as got : List In6Addr) :
    parse (p.goto (.addrs l got)) (addrToks as) = p.goto (.addrs l (as.reverse ++ got)) := by
  induction as generalizing got with
  | nil => rfl
  | cons a as ih =>
    change parse (p.goto (.addrs l (a :: got))) (addrToks as) = _
    rw [ih]
    simp

theorem parse_addrsdef {p : Parser} (l : AddrList) (a : In6Addr) (as : List In6Addr) (t : Token)
    (ht : step p t = p.goto (.addrsopen l)) :
    parse p (t :: .LBRACE :: (addrToks (a :: as) ++ [Token.RBRACE, .SEMICOLON])) =
      addrsdef l (a :: as).reverse (p.goto (.addrsclose l (a :: as).reverse)) := by
  have hopen : step (step p t) .LBRACE = p.goto (.addrs l []) := by
    rw [ht]
    rfl
  rw [parse_cons, parse_cons, hopen, parse_append, parse_addrs, List.append_nil]
  have hbrace : step (p.goto (.addrs l (a :: as).reverse)) .RBRACE = p.goto (.addrsclose l (a :: as).reverse) := by
    change (if (a :: as).reverse = [] then (p.goto (.addrs l (a :: as).reverse)).error
      else p.goto (.addrsclose l (a :: as).reverse)) = _
    exact if_neg (by simp)
  rw [parse_cons, hbrace]
  rfl

theorem add_clients (iface : IfaceConf) (as : List In6Addr) :
    (as.map Entry.client).foldl add iface = { iface with ClientList := iface.ClientList ++ as } := by
  induction as generalizing iface with
  | nil => simp
  | cons a as ih =>
    rw [List.map_cons, List.foldl_cons, ih]
    simp [add]

theorem add_rasrcs (iface : IfaceConf) (as : List In6Addr) :
    (as.map Entry.rasrc).foldl add iface =
      { iface with AdvRASrcAddressList := iface.AdvRASrcAddressList ++ as } := by
  induction as generalizing iface with
  | nil => simp
  | cons a as ih =>
    rw [List.map_cons, List.foldl_cons, ih]
    simp [add]

/-- The end of a prefix, braces or not. -/
theorem prefixdef_leaves {q : Parser} {iface : IfaceConf} {a : In6Addr} {n : UInt32}
    (body : List (Setting PrefixParm prefixparmOf)) (hn : ¬MAX_PrefixLen < n.toNat)
    (hpfx : q.pfx = some (applied prefixparms body { prefixInitDefaults with Prefix := a, PrefixLen := n.toUInt8 }))
    (hiface : q.iface = some iface) (hrdnss : q.rdnss = none) (hdnssl : q.dnssl = none) :
    Leaves (prefixdef q) ((prefixMade a n body).map fun p => add iface (.pfx p)) := by
  unfold prefixdef prefixMade
  rw [hpfx, hiface, if_neg hn]
  dsimp only
  split
  · rfl
  · split
    · rfl
    · exact
        { place := rfl
          iface_eq := rfl
          rdnss := hrdnss
          dnssl := hdnssl }

/-- Inside the braces of an interface. -/
theorem step_iface {p : Parser} (h : p.place = .params .iface) (t : Token) : step p t = ifaceparam p t := by
  unfold step
  rw [h]

section Statement
variable {p : Parser} {iface : IfaceConf} (h : At p iface)
include h

theorem parse_ifaceval (s : Setting IfaceVal ifacevalOf) :
    At (parse p s.toks) (Gram.ifaceval s.parm iface) := by
  have hof : parmOf .iface s.keyword s.value = some (.iface s.parm) := by
    change (ifacevalOf s.keyword s.value).map Parm.iface = some (.iface s.parm)
    rw [s.parm_eq]
    rfl
  have hparse : parse p s.toks = (parm (.iface s.parm) p).goto (.params .iface) := parse_setting h.place hof
  rw [hparse]
  exact
    { place := rfl
      iface_eq := congrArg (Option.map (Gram.ifaceval s.parm)) h.iface_eq
      rdnss := h.rdnss
      dnssl := h.dnssl }

theorem parse_prefixdef (a : In6Addr) (n : UInt32) (body : Option (List (Setting PrefixParm prefixparmOf))) :
    Leaves (parse p (Statement.prefixdef a n body).toks)
      ((prefixMade a n (body.getD [])).map fun p => add iface (.pfx p)) := by
  have hhead : parse p [Token.T_PREFIX, .IPV6ADDR a, .SLASH, .NUMBER n] =
      prefixhead a n (p.goto (.prefixlen a)) := by
    rw [parse_cons, step_iface h.place]
    rfl
  have htoks : ∃ rest, (Statement.prefixdef a n body).toks = [Token.T_PREFIX, .IPV6ADDR a, .SLASH, .NUMBER n] ++ rest ∧
      rest = match body with
        | none => [.SEMICOLON]
        | some body => braced body := by
    cases body with
    | none => exact ⟨_, rfl, rfl⟩
    | some body => exact ⟨_, rfl, rfl⟩
  obtain ⟨rest, htoks, hrest⟩ := htoks
  rw [htoks, parse_append, hhead]
  unfold prefixhead
  by_cases hn : MAX_PrefixLen < n.toNat
  · have hnone : prefixMade a n (body.getD []) = none := if_pos hn
    rw [if_pos hn, hnone]
    exact parse_failed rfl rest
  · rw [if_neg hn]
    cases body with
    | none =>
      rw [hrest]
      exact prefixdef_leaves [] hn rfl h.iface_eq h.rdnss h.dnssl
    | some body =>
      rw [hrest]
      change Leaves (parse { p with
        pfx := some { prefixInitDefaults with Prefix := a, PrefixLen := n.toUInt8 }
        place := .prefixopt } (braced body)) _
      rw [parse_braced .pfx .pfx prefixparms
        (fun p x => { p with pfx := some x, place := .params .pfx }) (by decide)
        (fun k t v hv => congrArg (Option.map Parm.pfx) hv) (fun _ _ _ => rfl) (fun _ _ => rfl) p _ _ rfl body]
      exact prefixdef_leaves body hn rfl h.iface_eq h.rdnss h.dnssl

theorem parse_routedef (a : In6Addr) (n : UInt32) (body : List (Setting RouteParm routeparmOf)) :
    Leaves (parse p (Statement.routedef a n body).toks)
      ((routeMade iface.MaxRtrAdvInterval a n body).map fun r => add iface (.route r)) := by
  have hhead : parse p [Token.T_ROUTE, .IPV6ADDR a, .SLASH, .NUMBER n] =
      if MAX_PrefixLen < n.toNat then (p.goto (.routelen a)).abort
      else { p with
        route := some { routeInitDefaults iface.MaxRtrAdvInterval with Prefix := a, PrefixLen := n.toUInt8 }
        place := .defopen .route } := by
    rw [parse_cons, step_iface h.place]
    change routehead a n (p.goto (.routelen a)) = _
    simp only [routehead, Parser.goto, h.iface_eq]
  have htoks : (Statement.routedef a n body).toks =
      [Token.T_ROUTE, .IPV6ADDR a, .SLASH, .NUMBER n] ++ braced body := rfl
  rw [htoks, parse_append, hhead]
  unfold routeMade
  by_cases hn : MAX_PrefixLen < n.toNat
  · rw [if_pos hn, if_pos hn]
    exact parse_failed rfl _
  · rw [if_neg hn, if_neg hn]
    rw [parse_braced .route .route routeparms
      (fun p x => { p with route := some x, place := .params .route }) (by decide)
      (fun k t v hv => congrArg (Option.map Parm.route) hv) (fun _ _ _ => rfl) (fun _ _ => rfl) p _ _ rfl body]
    exact
      { place := rfl
        iface_eq := congrArg (Option.map _) h.iface_eq
        rdnss := h.rdnss
        dnssl := h.dnssl }

theorem parse_lowpancodef (body : List (Setting LowpancoParm lowpancoparmOf)) :
    At (parse p (Statement.lowpancodef body).toks) (add iface (.lowpanco (applied lowpancoparms body
      { ContextLength := 0, ContextCompressionFlag := 0, AdvContextID := 0, AdvLifeTime := 0, AdvContextPrefix := zeroAddr }))) := by
  have hhead : parse p [Token.T_LOWPANCO] = lowpancohead p := step_iface h.place _
  have htoks : (Statement.lowpancodef body).toks = [Token.T_LOWPANCO] ++ braced body := rfl
  rw [htoks, parse_append, hhead]
  rw [parse_braced .lowpanco .lowpanco lowpancoparms
    (fun p x => { p with lowpanco := some x, place := .params .lowpanco }) (by decide)
    (fun k t v hv => congrArg (Option.map Parm.lowpanco) hv) (fun _ _ _ => rfl) (fun _ _ => rfl) p _ _ rfl body]
  exact
    { place := rfl
      iface_eq := congrArg (Option.map _) h.iface_eq
      rdnss := h.rdnss
      dnssl := h.dnssl }

theorem parse_abrodef (a : In6Addr) (len : Option UInt32) (body : List (Setting AbroParm abroparmOf)) :
    At (parse p (Statement.abrodef a len body).toks) (add iface (.abro (applied abroparms body
      { Version := (0, 0), ValidLifeTime := 0, LBRaddress := a }))) := by
  have hbody : ∀ q : Parser, step q .LBRACE = { abrohead a p with place := .params .abro } →
      At (parse q (braced body)) (add iface (.abro (applied abroparms body
        { Version := (0, 0), ValidLifeTime := 0, LBRaddress := a }))) := by
    intro q hq
    rw [parse_braced .abro .abro abroparms
      (fun p x => { p with abro := some x, place := .params .abro }) (by decide)
      (fun k t v hv => congrArg (Option.map Parm.abro) hv) (fun _ _ _ => rfl) (fun _ _ => rfl) p q _ hq body]
    exact
      { place := rfl
        iface_eq := congrArg (Option.map _) h.iface_eq
        rdnss := h.rdnss
        dnssl := h.dnssl }
  cases len with
  | none =>
    have hhead : parse p [Token.T_ABRO, .IPV6ADDR a] = p.goto (.abroopt a) := by
      rw [parse_cons, step_iface h.place]
      rfl
    have htoks : (Statement.abrodef a none body).toks = [Token.T_ABRO, .IPV6ADDR a] ++ braced body := rfl
    rw [htoks, parse_append, hhead]
    exact hbody _ rfl
  | some n =>
    have hhead : parse p [Token.T_ABRO, .IPV6ADDR a, .SLASH, .NUMBER n] = (abrohead a p).goto (.defopen .abro) := by
      rw [parse_cons, step_iface h.place]
      rfl
    have htoks : (Statement.abrodef a (some n) body).toks =
        [Token.T_ABRO, .IPV6ADDR a, .SLASH, .NUMBER n] ++ braced body := rfl
    rw [htoks, parse_append, hhead]
    exact hbody _ rfl

theorem parse_clientslist (a : In6Addr) (as : List In6Addr) :
    At (parse p (Statement.clientslist a as).toks) (((a :: as).reverse.map Entry.client).foldl add iface) := by
  have ht : step p .T_CLIENTS = p.goto (.addrsopen .clients) := step_iface h.place _
  have hparse := parse_addrsdef .clients a as .T_CLIENTS ht
  have htoks : (Statement.clientslist a as).toks =
      Token.T_CLIENTS :: .LBRACE :: (addrToks (a :: as) ++ [Token.RBRACE, .SEMICOLON]) := rfl
  rw [htoks, hparse, add_clients]
  exact
    { place := rfl
      iface_eq := congrArg (Option.map _) h.iface_eq
      rdnss := h.rdnss
      dnssl := h.dnssl }

theorem parse_rasrcaddresslist (a : In6Addr) (as : List In6Addr) :
    At (parse p (Statement.rasrcaddresslist a as).toks) (((a :: as).reverse.map Entry.rasrc).foldl add iface) := by
  have ht : step p .T_RASRCADDRESS = p.goto (.addrsopen .rasrcaddress) := step_iface h.place _
  have hparse := parse_addrsdef .rasrcaddress a as .T_RASRCADDRESS ht
  have htoks : (Statement.rasrcaddresslist a as).toks =
      Token.T_RASRCADDRESS :: .LBRACE :: (addrToks (a :: as) ++ [Token.RBRACE, .SEMICOLON]) := rfl
  rw [htoks, hparse, add_rasrcs]
  exact
    { place := rfl
      iface_eq := congrArg (Option.map _) h.iface_eq
      rdnss := h.rdnss
      dnssl := h.dnssl }

omit h in
/-- The addresses behind the first: `rdnss` holds what is read so far. -/
theorem parse_rdnssaddrs (hiface : p.iface = some iface) (as : List In6Addr) (r : AdvRDNSS) :
    match addAddrs r as with
    | none =>
      (parse { p with rdnss := some r, place := .rdnssaddrs true } (as.map Token.IPV6ADDR)).place = .failed
    | some r' => parse { p with rdnss := some r, place := .rdnssaddrs true } (as.map Token.IPV6ADDR) =
        { p with rdnss := some r', place := .rdnssaddrs true } := by
  induction as generalizing r with
  | nil => rfl
  | cons a as ih =>
    have hstep : step { p with rdnss := some r, place := .rdnssaddrs true } (.IPV6ADDR a) =
        match addAddr a r with
        | none => p.abort
        | some r => { p with rdnss := some r, place := .rdnssaddrs true } := by
      change rdnssaddr a { p with rdnss := some r, place := .rdnssaddrs true } = _
      simp only [rdnssaddr, hiface, Option.getD_some]
      cases addAddr a r <;> rfl
    rw [List.map_cons, addAddrs]
    change match (addAddr a r).bind fun r => addAddrs r as with
      | none => (parse (step { p with rdnss := some r, place := .rdnssaddrs true } (.IPV6ADDR a))
          (as.map Token.IPV6ADDR)).place = .failed
      | some r' => parse (step { p with rdnss := some r, place := .rdnssaddrs true } (.IPV6ADDR a))
          (as.map Token.IPV6ADDR) = { p with rdnss := some r', place := .rdnssaddrs true }
    rw [hstep]
    cases haddr : addAddr a r with
    | none => exact parse_failed rfl _
    | some r' => exact ih r'

theorem parse_rdnssdef (a : In6Addr) (as : List In6Addr) (body : List (Setting RdnssParm rdnssparmOf)) :
    Leaves (parse p (Statement.rdnssdef a as body).toks)
      ((rdnssMade iface.MaxRtrAdvInterval (a :: as) body).map fun r => add iface (.rdnss r)) := by
  obtain ⟨r, hr⟩ : ∃ r, addAddr a (rdnssInitDefaults iface.MaxRtrAdvInterval) = some r := ⟨_, rfl⟩
  have hfirst : parse p [Token.T_RDNSS, .IPV6ADDR a] = { p with rdnss := some r, place := .rdnssaddrs true } := by
    rw [parse_cons, step_iface h.place]
    change rdnssaddr a (p.goto (.rdnssaddrs false)) = _
    simp [rdnssaddr, Parser.goto, h.iface_eq, h.rdnss, hr]
  have hrest := parse_rdnssaddrs h.iface_eq as r
  have hadd : addAddrs (rdnssInitDefaults iface.MaxRtrAdvInterval) (a :: as) = addAddrs r as := by
    rw [addAddrs, hr]
    rfl
  have htoks : (Statement.rdnssdef a as body).toks =
      [Token.T_RDNSS, .IPV6ADDR a] ++ (as.map Token.IPV6ADDR ++ braced body) := rfl
  rw [htoks, parse_append, hfirst, parse_append, rdnssMade, hadd]
  cases hadds : addAddrs r as with
  | none =>
    rw [hadds] at hrest
    exact parse_failed hrest _
  | some r' =>
    rw [hadds] at hrest
    dsimp only at hrest
    have hopen : step { p with rdnss := some r', place := .rdnssaddrs true } .LBRACE =
        { p with iface := some iface, rdnss := some r', place := .params .rdnss } := by
      rw [← h.iface_eq]
      rfl
    rw [hrest, parse_braced .rdnss .rdnss (rdnssparms iface.MaxRtrAdvInterval)
      (fun p x => { p with iface := some iface, rdnss := some x, place := .params .rdnss }) (by decide)
      (fun k t v hv => congrArg (Option.map Parm.rdnss) hv) (fun _ _ _ => rfl) (fun _ _ => rfl) p _ _ hopen body]
    exact
      { place := rfl
        iface_eq := rfl
        rdnss := rfl
        dnssl := h.dnssl }

omit h in
theorem parse_dnsslsuffixes (hiface : p.iface = some iface) (ss got : List Buf) :
    if ss.all (·.all suffixChar) then
      parse (suffixed iface.MaxRtrAdvInterval p got) (ss.map Token.STRING) =
        suffixed iface.MaxRtrAdvInterval p (got ++ ss)
    else (parse (suffixed iface.MaxRtrAdvInterval p got) (ss.map Token.STRING)).place = .failed := by
  induction ss generalizing got with
  | nil =>
    rw [List.append_nil]
    rfl
  | cons s ss ih =>
    have hstep : step (suffixed iface.MaxRtrAdvInterval p got) (.STRING s) =
        if s.all suffixChar then suffixed iface.MaxRtrAdvInterval p (got ++ [s]) else p.abort := by
      change dnsslsuffix s (suffixed iface.MaxRtrAdvInterval p got) = _
      simp only [dnsslsuffix, suffixed, hiface, Option.getD_some]
      rfl
    rw [List.all_cons]
    change if s.all suffixChar && ss.all (·.all suffixChar) then
        parse (step (suffixed iface.MaxRtrAdvInterval p got) (.STRING s)) (ss.map Token.STRING) =
          suffixed iface.MaxRtrAdvInterval p (got ++ s :: ss)
      else (parse (step (suffixed iface.MaxRtrAdvInterval p got) (.STRING s)) (ss.map Token.STRING)).place = .failed
    rw [hstep]
    cases hs : s.all suffixChar with
    | false => exact parse_failed rfl _
    | true =>
      have hih := ih (got ++ [s])
      rw [List.append_assoc] at hih
      exact hih

theorem parse_dnssldef (s : Buf) (ss : List Buf) (body : List (Setting DnsslParm dnsslparmOf)) :
    Leaves (parse p (Statement.dnssldef s ss body).toks)
      ((dnsslMade iface.MaxRtrAdvInterval (s :: ss) body).map fun d => add iface (.dnssl d)) := by
  have hfirst : parse p [Token.T_DNSSL] = { p with place := .dnsslsuffixes false } := step_iface h.place _
  have hstep : step { p with place := .dnsslsuffixes false } (.STRING s) =
      if s.all suffixChar then suffixed iface.MaxRtrAdvInterval p [s] else p.abort := by
    change dnsslsuffix s { p with place := .dnsslsuffixes false } = _
    simp only [dnsslsuffix, h.iface_eq, h.dnssl, Option.getD_none]
    rw [suffixed, h.iface_eq]
    rfl
  have hrest := parse_dnsslsuffixes h.iface_eq ss [s]
  have htoks : (Statement.dnssldef s ss body).toks =
      [Token.T_DNSSL] ++ (Token.STRING s :: (ss.map Token.STRING ++ braced body)) := rfl
  rw [htoks, parse_append, hfirst, parse_cons, hstep, parse_append, dnsslMade, List.all_cons]
  cases hs : s.all suffixChar with
  | false => exact parse_failed (parse_failed rfl _) _
  | true =>
    cases hss : ss.all (·.all suffixChar) with
    | false =>
      rw [hss, if_neg (by decide)] at hrest
      exact parse_failed hrest _
    | true =>
      rw [hss, if_pos rfl] at hrest
      have hopen : step (suffixed iface.MaxRtrAdvInterval p ([s] ++ ss)) .LBRACE =
          { p with
            iface := some iface
            dnssl := some { dnsslInitDefaults iface.MaxRtrAdvInterval with AdvDNSSLSuffixes := s :: ss }
            place := .params .dnssl } := by
        rw [← h.iface_eq]
        rfl
      rw [if_pos rfl, hrest, parse_braced .dnssl .dnssl (dnsslparms iface.MaxRtrAdvInterval)
        (fun p x => { p with iface := some iface, dnssl := some x, place := .params .dnssl }) (by decide)
        (fun k t v hv => congrArg (Option.map Parm.dnssl) hv) (fun _ _ _ => rfl) (fun _ _ => rfl) p _ _ hopen body]
      exact
        { place := rfl
          iface_eq := rfl
          rdnss := h.rdnss
          dnssl := rfl }

omit h in
theorem leaves_one {β : Type} {q : Parser} {o : Option β} {make : β → Entry}
    (h : Leaves q (o.map fun x => add iface (make x))) :
    Leaves q ((o.map fun x => [make x]).map fun es => es.foldl add iface) := by
  rw [Option.map_map]
  exact h

/-- The parser does to an interface what the statement does. -/
theorem parse_statement (s : Statement) : Leaves (parse p s.toks) (s.exec iface) := by
  cases s with
  | ifaceval s => exact parse_ifaceval h s
  | prefixdef a n body => exact leaves_one (parse_prefixdef h a n body)
  | clientslist a as => exact parse_clientslist h a as
  | routedef a n body => exact leaves_one (parse_routedef h a n body)
  | rdnssdef a as body => exact leaves_one (parse_rdnssdef h a as body)
  | dnssldef s ss body => exact leaves_one (parse_dnssldef h s ss body)
  | lowpancodef body => exact parse_lowpancodef h body
  | abrodef a len body => exact parse_abrodef h a len body
  | rasrcaddresslist a as => exact parse_rasrcaddresslist h a as

theorem parse_statements (ss : List Statement) : Leaves (parse p (ss.flatMap Statement.toks)) (execs iface ss) := by
  induction ss generalizing p iface with
  | nil => exact h
  | cons s ss ih =>
    have hfirst := parse_statement h s
    rw [List.flatMap_cons, parse_append, execs]
    cases hexec : s.exec iface with
    | none =>
      rw [hexec] at hfirst
      exact parse_failed hfirst _
    | some iface' =>
      rw [hexec] at hfirst
      exact ih hfirst

end Statement

/-! ### A block -/

/-- The tokens of an interface definition. -/
def blockToks (name : Buf) (ss : List Statement) : List Token :=
  .T_INTERFACE :: .STRING name :: .LBRACE :: (ss.flatMap Statement.toks ++ [.RBRACE, .SEMICOLON])

/-- The interface of a file with one definition; `none` when the file is refused. -/
def ifaceRead (toks : List Token) : Option IfaceConf :=
  if accepted (parse (fresh initial) toks) then
    (parse (fresh initial) toks).IfaceList.head?.map (·.conf)
  else none

/-- The parser reads a block statement by statement. -/
theorem ifaceRead_block (name : Buf) (ss : List Statement) :
    ifaceRead (blockToks name ss) = execs { ifaceInitDefaults with name := ifname name } ss := by
  have hhead : parse (fresh initial) [Token.T_INTERFACE, .STRING name, .LBRACE] =
      { fresh initial with
        iface := some { ifaceInitDefaults with name := ifname name }
        place := .params .iface } := by
    rfl
  have hat : At (parse (fresh initial) [Token.T_INTERFACE, .STRING name, .LBRACE])
      { ifaceInitDefaults with name := ifname name } := by
    rw [hhead]
    exact
      { place := rfl
        iface_eq := rfl
        rdnss := rfl
        dnssl := rfl }
  have hrun := parse_statements hat ss
  have htoks : blockToks name ss =
      [Token.T_INTERFACE, .STRING name, .LBRACE] ++ (ss.flatMap Statement.toks ++ [Token.RBRACE, .SEMICOLON]) := rfl
  rw [ifaceRead, htoks, parse_append, parse_append]
  generalize parse (parse (fresh initial) [Token.T_INTERFACE, .STRING name, .LBRACE]) (ss.flatMap Statement.toks) = q at hrun
  cases hexec : execs { ifaceInitDefaults with name := ifname name } ss with
  | none =>
    rw [hexec] at hrun
    have hfailed := parse_failed hrun [Token.RBRACE, .SEMICOLON]
    have hrefused : accepted (parse q [Token.RBRACE, .SEMICOLON]) = false := by simp [accepted, hfailed]
    rw [hrefused]
    rfl
  | some iface =>
    rw [hexec] at hrun
    have hdone : parse q [Token.RBRACE, .SEMICOLON] =
        { q with
          IfaceList := { conf := iface, live := true } :: q.IfaceList
          iface := none
          place := .grammar } := by
      rw [parse_cons, step_iface hrun.place]
      change ifacedef (q.goto .ifaceclose) = _
      simp [Parser.goto, ifacedef, hrun.iface_eq]
    rw [hdone]
    rfl

end WanStack.Radvd.Gram
