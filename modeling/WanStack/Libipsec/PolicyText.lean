import Mathlib.Algebra.Ring.Nat
import Mathlib.Data.Int.Notation
import WanStack.Lib.Scanner

set_option autoImplicit false

/-!
# Policy texts

`ipsec_set_policy` with its scanner and grammar (`policy_token.l`,
`policy_parse.y`) and `ipsec_dump_policy_withports`, with policy priorities and
forward policies as on Linux. Memory suffices. The conversions of addresses of
the C library are parameters.
-/
namespace WanStack.Libipsec
open Scanner

abbrev Text : Type := List Char

/-! ### Policies -/

inductive Dir where
  | ANY
  | INBOUND
  | OUTBOUND
  | FWD
  | SOCKET_IN
  | SOCKET_OUT
deriving DecidableEq, Repr

inductive PolicyType where
  | DISCARD
  | NONE
  | IPSEC
  | ENTRUST
  | BYPASS
deriving DecidableEq, Repr

inductive Proto where
  | IP
  | ESP
  | AH
  | IPCOMP
deriving DecidableEq, Repr

inductive Mode where
  | ANY
  | TRANSPORT
  | TUNNEL
deriving DecidableEq, Repr

inductive Level where
  | DEFAULT
  | USE
  | REQUIRE
  | UNIQUE
deriving DecidableEq, Repr

inductive Sockaddr where
  | inet (addr : ℕ) (port : UInt16)
  | inet6 (addr scope : ℕ) (port : UInt16)
deriving DecidableEq

def Sockaddr.port : Sockaddr → UInt16
  | .inet _ port => port
  | .inet6 _ _ port => port

/-- `sysdep_sa_len`. -/
def Sockaddr.len : Sockaddr → ℕ
  | .inet .. => 16
  | .inet6 .. => 28

def Sockaddr.sameFamily : Sockaddr → Sockaddr → Bool
  | .inet .., .inet .. => true
  | .inet6 .., .inet6 .. => true
  | _, _ => false

/-- `struct sadb_x_ipsecrequest`, with the addresses behind it. -/
structure Request where
  proto : Proto
  mode : Mode
  level : Level
  reqid : ℕ
  addrs : Option (Sockaddr × Sockaddr)
deriving DecidableEq

def REQUEST_LEN : ℕ := 16
def POLICY_LEN : ℕ := 16

def Request.len (r : Request) : ℕ :=
  REQUEST_LEN + match r.addrs with
    | none => 0
    | some (src, dst) => src.len + dst.len

/-- A `struct sadb_x_policy` buffer; `len` counts eights of a byte. -/
structure Policy where
  len : ℕ
  type : PolicyType
  dir : Dir
  priority : ℕ
  requests : List Request
deriving DecidableEq

def PRIORITY_LOW : ℕ := 0xC0000000
def PRIORITY_DEFAULT : ℕ := 0x80000000
def PRIORITY_HIGH : ℕ := 0x40000000
def PRIORITY_OFFSET_POSITIVE_MAX : ℕ := 0x3fffffff
def PRIORITY_OFFSET_NEGATIVE_MAX : ℕ := 0x40000000

def IPSEC_MANUAL_REQID_MAX : ℕ := 0x3fff

def NI_MAXHOST : ℕ := 1025

def LONG_MAX : ℕ := 0x7fffffffffffffff

/-- A `u_int32_t`. -/
def u32 (v : ℤ) : ℕ := (v % 4294967296).toNat

/-- `getnameinfo` with a numeric host, and `getaddrinfo` for one. -/
structure Libc where
  getnameinfo : Sockaddr → Option Text
  getaddrinfo : Text → Option Text → Option Sockaddr

/-- `%u`. -/
def decimal (n : ℕ) : Text := Nat.toDigits 10 n

/-- `atol` of digits. -/
def atol (text : Text) : ℕ := min (Nat.ofDigitChars 10 text 0) LONG_MAX

/-! ### The scanner -/

inductive Token where
  | DIR (d : Dir)
  | PRIORITY
  | PLUS
  | PRIO_BASE (n : ℕ)
  | PRIO_OFFSET (text : Text)
  | ACTION (t : PolicyType)
  | PROTOCOL (p : Proto)
  | MODE (m : Mode)
  | LEVEL (l : Level)
  | LEVEL_SPECIFY (text : Text)
  | IPADDRESS (text : Text)
  | PORT (text : Text)
  | ME
  | ANY
  | SLASH
  | HYPHEN
deriving DecidableEq, Repr

def litLen (s input : Text) : Option ℕ := if s.isPrefixOf input then some s.length else none

/-- A run of characters that is not empty. -/
def runLen (p : Char → Bool) (input : Text) : Option ℕ :=
  match (input.takeWhile p).length with
  | 0 => none
  | n + 1 => some (n + 1)

/-- `s`, then what `len` matches. -/
def litThen (s : Text) (len : Text → Option ℕ) (input : Text) : Option ℕ :=
  if s.isPrefixOf input then (len (input.drop s.length)).map (s.length + ·) else none

def hostChar (c : Char) : Bool := c.isAlphanum || c = ':' || c = '.' || c = '_'

def isBlank (c : Char) : Bool := c = ' ' || c = '\t'

/-- `{ipaddress}`. -/
def ipaddressLen (input : Text) : Option ℕ :=
  (runLen hostChar input).map fun n =>
    match litThen ['%'] (runLen Char.isAlphanum) (input.drop n) with
    | none => n
    | some k => n + k

/-- `[`, digits and `]`. -/
def portLen (input : Text) : Option ℕ :=
  match litThen ['['] (runLen Char.isDigit) input with
  | none => none
  | some n => if (input.drop n).head? = some ']' then some (n + 1) else none

def word (s : Text) (t : Token) : Rule Char Token where
  len := litLen s
  token _ := some t

/-- `{decstring}`. -/
def decstring : Rule Char Token where
  len := runLen Char.isDigit
  token w := some (.PRIO_OFFSET w)

/-- `unique{colon}{decstring}`. -/
def uniqueDecstring : Rule Char Token where
  len := litThen "unique:".toList (runLen Char.isDigit)
  token w := some (.LEVEL_SPECIFY (w.drop 7))

def ipaddress : Rule Char Token where
  len := ipaddressLen
  token w := some (.IPADDRESS w)

/-- `{blcl}{decstring}{elcl}`. -/
def port : Rule Char Token where
  len := portLen
  token w := some (.PORT ((w.drop 1).dropLast))

def ws : Rule Char Token where
  len := runLen isBlank
  token _ := none

def nl : Rule Char Token where
  len := litLen ['\n']
  token _ := none

/-- The rules of `policy_token.l`, in their order. -/
def policyRules : List (Rule Char Token) :=
  [word "in".toList (.DIR .INBOUND), word "out".toList (.DIR .OUTBOUND), word "fwd".toList (.DIR .FWD),
    word "priority".toList .PRIORITY, word "prio".toList .PRIORITY,
    word "low".toList (.PRIO_BASE PRIORITY_LOW), word "def".toList (.PRIO_BASE PRIORITY_DEFAULT),
    word "high".toList (.PRIO_BASE PRIORITY_HIGH), word "+".toList .PLUS, decstring,
    word "discard".toList (.ACTION .DISCARD), word "none".toList (.ACTION .NONE),
    word "ipsec".toList (.ACTION .IPSEC), word "bypass".toList (.ACTION .BYPASS),
    word "entrust".toList (.ACTION .ENTRUST), word "esp".toList (.PROTOCOL .ESP),
    word "ah".toList (.PROTOCOL .AH), word "ipcomp".toList (.PROTOCOL .IPCOMP),
    word "transport".toList (.MODE .TRANSPORT), word "tunnel".toList (.MODE .TUNNEL),
    word "me".toList .ME, word "any".toList .ANY, word "default".toList (.LEVEL .DEFAULT),
    word "use".toList (.LEVEL .USE), word "require".toList (.LEVEL .REQUIRE), uniqueDecstring,
    word "unique".toList (.LEVEL .UNIQUE), word "/".toList .SLASH, ipaddress, word "-".toList .HYPHEN,
    port, ws, nl]

def yylex : Text → List Token := lex policyRules

/-! ### The grammar -/

/-- `p_dir`, `p_type` and `p_priority` as the first rule leaves them, and the tokens
    behind it. -/
structure Spec where
  dir : Dir
  type : PolicyType
  priority : ℕ
  rules : List Token

def policySpec : List Token → Option Spec
  | [.DIR d] =>
    some
      { dir := d
        type := .DISCARD
        priority := 0
        rules := [] }
  | .DIR d :: .ACTION t :: rules =>
    some
      { dir := d
        type := t
        priority := PRIORITY_DEFAULT
        rules := rules }
  | .DIR d :: .PRIORITY :: .PRIO_OFFSET text :: .ACTION t :: rules =>
    if 0x80000000 < atol text then none else
    some
      { dir := d
        type := t
        priority := u32 (PRIORITY_DEFAULT - atol text)
        rules := rules }
  | .DIR d :: .PRIORITY :: .HYPHEN :: .PRIO_OFFSET text :: .ACTION t :: rules =>
    if 0x7fffffff < atol text then none else
    some
      { dir := d
        type := t
        priority := u32 (PRIORITY_DEFAULT + atol text)
        rules := rules }
  | .DIR d :: .PRIORITY :: .PRIO_BASE n :: .ACTION t :: rules =>
    some
      { dir := d
        type := t
        priority := u32 n
        rules := rules }
  | .DIR d :: .PRIORITY :: .PRIO_BASE n :: .PLUS :: .PRIO_OFFSET text :: .ACTION t :: rules =>
    if PRIORITY_OFFSET_NEGATIVE_MAX < atol text then none else
    some
      { dir := d
        type := t
        priority := u32 (n - atol text)
        rules := rules }
  | .DIR d :: .PRIORITY :: .PRIO_BASE n :: .HYPHEN :: .PRIO_OFFSET text :: .ACTION t :: rules =>
    if PRIORITY_OFFSET_POSITIVE_MAX < atol text then none else
    some
      { dir := d
        type := t
        priority := u32 (n + atol text)
        rules := rules }
  | _ => none

/-- `level`: the level, the request's number, and what is behind. -/
def level : List Token → Option (Level × ℕ × List Token)
  | .LEVEL l :: rest => some (l, 0, rest)
  | .LEVEL_SPECIFY text :: rest => some (.UNIQUE, u32 (atol text), rest)
  | _ => none

/-- `addresses`. -/
def addresses (libc : Libc) (dir : Dir) : List Token → Option (Option (Sockaddr × Sockaddr) × List Token)
  | .IPADDRESS a :: .HYPHEN :: .IPADDRESS b :: rest =>
    match libc.getaddrinfo a none, libc.getaddrinfo b none with
    | some src, some dst => some (some (src, dst), rest)
    | _, _ => none
  | .IPADDRESS a :: .PORT p :: .HYPHEN :: .IPADDRESS b :: .PORT q :: rest =>
    match libc.getaddrinfo a (some p), libc.getaddrinfo b (some q) with
    | some src, some dst => some (some (src, dst), rest)
    | _, _ => none
  | .ME :: .HYPHEN :: .ANY :: rest => if dir ≠ .OUTBOUND then none else some (none, rest)
  | .ANY :: .HYPHEN :: .ME :: rest => if dir ≠ .INBOUND then none else some (none, rest)
  | _ => none

/-- What may follow the addresses: a slash, or a slash and a level. -/
def levelPart : List Token → Option (Level × ℕ × List Token)
  | .SLASH :: .LEVEL l :: rest => level (.LEVEL l :: rest)
  | .SLASH :: .LEVEL_SPECIFY text :: rest => level (.LEVEL_SPECIFY text :: rest)
  | .SLASH :: rest => some (.DEFAULT, 0, rest)
  | rest => some (.DEFAULT, 0, rest)

/-- What follows the mode. -/
def ruleTail (libc : Libc) (dir : Dir) (p : Proto) (m : Mode) :
    List Token → Option (Request × List Token)
  | .SLASH :: .SLASH :: rest =>
    (level rest).map fun l =>
      ({ proto := p, mode := m, level := l.1, reqid := l.2.1, addrs := none }, l.2.2)
  | .SLASH :: .PROTOCOL p' :: rest =>
    some ({ proto := p, mode := m, level := .DEFAULT, reqid := 0, addrs := none }, .PROTOCOL p' :: rest)
  | [.SLASH] => some ({ proto := p, mode := m, level := .DEFAULT, reqid := 0, addrs := none }, [])
  | .SLASH :: rest =>
    (addresses libc dir rest).bind fun a =>
      (levelPart a.2).map fun l =>
        ({ proto := p, mode := m, level := l.1, reqid := l.2.1, addrs := a.1 }, l.2.2)
  | rest => some ({ proto := p, mode := m, level := .DEFAULT, reqid := 0, addrs := none }, rest)

/-- `rule`. -/
def rule (libc : Libc) (dir : Dir) : List Token → Option (Request × List Token)
  | .PROTOCOL p :: .SLASH :: .MODE m :: rest => ruleTail libc dir p m rest
  | _ => none

def ruleCheck (type : PolicyType) (r : Request) : Bool :=
  type ≠ .IPSEC ||
    r.proto ≠ .IP && (r.mode = .TRANSPORT || r.mode = .TUNNEL) &&
      match r.addrs with
      | none => r.mode = .TRANSPORT
      | some (src, dst) => src.sameFamily dst

/-- `rules`; every rule takes a token. -/
def rules (libc : Libc) (dir : Dir) (type : PolicyType) : ℕ → List Token → Option (List Request)
  | _, [] => some []
  | 0, _ => none
  | fuel + 1, toks =>
    (rule libc dir toks).bind fun r =>
      if ruleCheck type r.1 then (rules libc dir type fuel r.2).map (r.1 :: ·) else none

/-- The bytes of a policy with its requests. -/
def totalLen (rs : List Request) : ℕ := POLICY_LEN + (rs.map Request.len).sum

/-- `ipsec_set_policy`. The length is kept in two bytes. -/
def ipsecSetPolicy (libc : Libc) (msg : Text) : Option Policy :=
  (policySpec (yylex msg)).bind fun spec =>
    (rules libc spec.dir spec.type spec.rules.length spec.rules).map fun rs =>
      { len := totalLen rs / 8 % 65536
        type := spec.type
        dir := spec.dir
        priority := spec.priority
        requests := rs }

/-! ### The printer -/

def dirStr : Dir → Text
  | .ANY => "any".toList
  | .INBOUND => "in".toList
  | .OUTBOUND => "out".toList
  | .FWD => "fwd".toList
  | .SOCKET_IN => "in(socket)".toList
  | .SOCKET_OUT => "out(socket)".toList

def policyStr : PolicyType → Text
  | .DISCARD => "discard".toList
  | .NONE => "none".toList
  | .IPSEC => "ipsec".toList
  | .ENTRUST => "entrust".toList
  | .BYPASS => "bypass".toList

/-- `priority_offset` and `priority_str`, before the sign is fixed. -/
def closest (priority : ℕ) : ℤ × Text :=
  if priority = 0 then (0, [])
  else if priority < PRIORITY_DEFAULT / 4 * 3 then ((priority : ℤ) - PRIORITY_HIGH, "prio high".toList)
  else if priority < PRIORITY_DEFAULT / 4 * 5 then ((priority : ℤ) - PRIORITY_DEFAULT, "prio def".toList)
  else ((priority : ℤ) - PRIORITY_LOW, "prio low".toList)

def headText (p : Policy) : Text :=
  let (offset, str) := closest p.priority
  let (operator, offset) := if 0 < offset then ('-', offset) else ('+', -offset)
  if offset ≠ 0 then
    dirStr p.dir ++ [' '] ++ str ++ [' ', operator, ' '] ++ decimal offset.toNat ++ [' '] ++ policyStr p.type
  else if str ≠ [] then dirStr p.dir ++ [' '] ++ str ++ [' '] ++ policyStr p.type
  else dirStr p.dir ++ [' '] ++ policyStr p.type

def protoStr : Proto → Option Text
  | .IP => none
  | .ESP => some "esp".toList
  | .AH => some "ah".toList
  | .IPCOMP => some "ipcomp".toList

def modeStr : Mode → Text
  | .ANY => "any".toList
  | .TRANSPORT => "transport".toList
  | .TUNNEL => "tunnel".toList

def levelStr : Level → Text
  | .DEFAULT => "default".toList
  | .USE => "use".toList
  | .REQUIRE => "require".toList
  | .UNIQUE => "unique".toList

/-- `snprintf` into a buffer of `len` bytes. -/
def snprintf (len : ℕ) (text : Text) : Text := text.take (len - 1)

/-- `set_address`, with ports. -/
def setAddress (libc : Libc) (a : Sockaddr) : Option Text :=
  (libc.getnameinfo a).map fun host =>
    snprintf NI_MAXHOST (host ++ ['['] ++ decimal a.port.toNat ++ [']'])

def setAddresses (libc : Libc) : Option (Sockaddr × Sockaddr) → Option Text
  | none => some []
  | some (src, dst) =>
    match setAddress libc src, setAddress libc dst with
    | some tmp1, some tmp2 =>
      if NI_MAXHOST * 2 + 2 < tmp1.length + 1 + tmp2.length + 1 then none
      else some (tmp1 ++ ['-'] ++ tmp2)
    | _, _ => none

def reqidText (reqid : ℕ) : Text :=
  if reqid = 0 then []
  else (if IPSEC_MANUAL_REQID_MAX < reqid then '#' else ':') :: decimal reqid

/-- `ipsec_dump_ipsecrequest`. -/
def dumpIpsecrequest (libc : Libc) (r : Request) (bound : ℕ) : Option Text :=
  if bound < r.len then none else
  match protoStr r.proto, setAddresses libc r.addrs with
  | some proto, some abuf =>
    some (snprintf 1024
      (proto ++ ['/'] ++ modeStr r.mode ++ ['/'] ++ abuf ++ ['/'] ++ levelStr r.level ++ reqidText r.reqid))
  | _, _ => none

/-- The loop that counts: the requests up to `extlen`, if they end there. -/
def countRequests (extlen : ℕ) : ℕ → List Request → Option (List Request)
  | off, [] => if off = extlen then some [] else none
  | off, r :: rs =>
    if off < extlen then (countRequests extlen (off + r.len) rs).map (r :: ·)
    else if off = extlen then some [] else none

/-- The loop that prints. -/
def dumpRequests (libc : Libc) (delimiter : Text) (extlen : ℕ) : ℕ → List Request → Option Text
  | _, [] => some []
  | off, r :: rs =>
    (dumpIpsecrequest libc r (extlen - off)).bind fun isrbuf =>
      (dumpRequests libc delimiter extlen (off + r.len) rs).map fun rest => delimiter ++ isrbuf ++ rest

/-- `ipsec_dump_policy_withports`. -/
def ipsecDumpPolicyWithports (libc : Libc) (p : Policy) (delimiter : Option Text) : Option Text :=
  if p.type ≠ .IPSEC then some (headText p) else
  (countRequests (p.len * 8) POLICY_LEN p.requests).bind fun rs =>
    (dumpRequests libc (delimiter.getD [' ']) (p.len * 8) POLICY_LEN rs).map (headText p ++ ·)

end WanStack.Libipsec
