import WanStack.Aftr.Changes
import WanStack.Aftr.Filters
import WanStack.Lib.Scanf

set_option autoImplicit false

/-!
# Commands of the FTP gateway

`patch_ftpin` recognises the commands and replies that announce a data connection, opens
a NAT entry for it and writes the command anew for the outside.
-/
namespace WanStack.Aftr.Ftp
open Scanf Filter

inductive Kind where
  | port
  | eprt
  | pasv
  | epsv
deriving DecidableEq, Repr

/-- Four numbers with a separator. -/
def quad (sep : Char) : Buf → Text
  | [] => []
  | [b] => decimal b.toNat
  | b :: bs => decimal b.toNat ++ sep :: quad sep bs

/-- The patterns of the lines, for the address of the side they come from. -/
def Kind.pattern (a : ℕ) : Kind → Text
  | .port => snprintf 128 ("PORT * ".toList ++ quad ',' (addr4Bytes a) ++ ",%hhu,%hhu\r\n".toList)
  | .eprt => snprintf 128 ("EPRT * |1|".toList ++ quad '.' (addr4Bytes a) ++ "|%hu|\r\n".toList)
  | .pasv => snprintf 128 ("227 * (".toList ++ quad ',' (addr4Bytes a) ++ ",%hhu,%hhu)\r\n".toList)
  | .epsv => "229 * (|||%hu|\r\n".toList

/-- The lines that are written, for an address and a port. -/
def Kind.line (a p : ℕ) : Kind → Text
  | .port => snprintf 128 ("PORT ".toList ++ quad ',' (addr4Bytes a ++ portBytes p) ++ "\r\n".toList)
  | .eprt => snprintf 128 ("EPRT |1||".toList ++ quad '.' (addr4Bytes a) ++ '|' ::
      decimal (shortAt (portBytes p) 0) ++ "|\r\n".toList)
  | .pasv => snprintf 128 ("227 Entering Passive Mode (".toList ++
      quad ',' (addr4Bytes a ++ portBytes p) ++ ")\r\n".toList)
  | .epsv => snprintf 128 ("229 Entering Extended Passive Mode (|||".toList ++
      decimal (shortAt (portBytes p) 0) ++ "|)\r\n".toList)

/-- `strrchr`. -/
def strrchr (c : Char) : Text → Option Text
  | [] => none
  | x :: t =>
    match strrchr c t with
    | some u => some u
    | none => if x = c then some (x :: t) else none

/-- The numbers that are read; `pat` is a head, a star and a tail. -/
def ftpscan (d pat : Text) : List ℕ :=
  let head := pat.takeWhile (· ≠ '*')
  match pat.dropWhile (· ≠ '*') with
  | [] => []
  | _ :: tail =>
    if !head.isPrefixOf d then []
    else match strrchr ' ' (d.drop (head.length - 1)) with
      | none => []
      | some cmd => scanf (directives tail) cmd

/-- The string at the payload. -/
def cstr (b : Buf) : Text := (b.takeWhile (· ≠ 0)).map fun x => Char.ofNat x.toNat

/-- What a scan leaves in `p[2]`. -/
def scanned (p : UInt8 × UInt8) : List ℕ → UInt8 × UInt8
  | [] => p
  | [x] => (UInt8.ofNat x, p.2)
  | x :: y :: _ => (UInt8.ofNat x, UInt8.ofNat y)

/-- The line of a client (`server = false`) or of a server, with `p` for
    `get_ftptempdata`; `p` starts with whatever the stack holds. -/
def recognise (server : Bool) (a : ℕ) (d : Text) (p : UInt8 × UInt8) :
    Option (Kind × (UInt8 × UInt8)) :=
  let (first, second) := if server then (Kind.pasv, Kind.epsv) else (Kind.port, Kind.eprt)
  let r := ftpscan d (first.pattern a)
  let p := scanned p r
  if r.length = 2 then some (first, p)
  else if (ftpscan d (second.pattern a)).length = 1 then some (second, p)
  else none

/-- The lines of `patch_ftpin` with the payload `b` of a segment of the entry `n`: the kind
    of line, the entry of the data connection and the new text. -/
def patchFtpline (cfg : Conf) (env : NatEnv) (server : Bool) (p : UInt8 × UInt8) (n : NatEntry)
    (b : Buf) (s : State) : State × Option (Option (Kind × NatEntry × Text)) :=
  if b.length > 128 then (s, some none)
  else match recognise server n.src (cstr b) p with
    | none => (s, some none)
    | some (k, p) =>
      match getFtptempdata cfg env n (p.1.toNat * 256 + p.2.toNat) s with
      | (s, none) => (s, none)
      | (s, some td) => (s, some (some (k, td, k.line td.nsrc td.nport)))

/-! ### Scans -/

/-- The port a line announces, as its pattern reads it. -/
def announced (k : Kind) (a : ℕ) (d : Text) : Option ℕ :=
  match k, ftpscan d (k.pattern a) with
  | .port, [x, y] => some ((UInt8.ofNat x).toNat * 256 + (UInt8.ofNat y).toNat)
  | .pasv, [x, y] => some ((UInt8.ofNat x).toNat * 256 + (UInt8.ofNat y).toNat)
  | .eprt, [x] => some (x % 65536)
  | .epsv, [x] => some (x % 65536)
  | _, _ => none

section Scan

variable {a p : ℕ} {d t u : Text} {c sep : Char}

theorem quad_mem {b : Buf} (h : c ∈ quad sep b) : c.isDigit = true ∨ c = sep := by
  induction b with
  | nil => cases h
  | cons x bs ih =>
    cases bs with
    | nil => exact .inl (decimal_isDigit h)
    | cons y bs =>
      rcases List.mem_append.mp h with hx | hrest
      · exact .inl (decimal_isDigit hx)
      · rcases List.mem_cons.mp hrest with rfl | hmem
        · exact .inr rfl
        · exact ih hmem

theorem quad_append {b b' : Buf} (hb : b ≠ []) (hb' : b' ≠ []) :
    quad sep (b ++ b') = quad sep b ++ sep :: quad sep b' := by
  induction b with
  | nil => exact absurd rfl hb
  | cons x bs ih =>
    cases bs with
    | nil =>
      cases b' with
      | nil => exact absurd rfl hb'
      | cons y b' => rfl
    | cons y bs =>
      have hrest := ih (List.cons_ne_nil y bs)
      change decimal x.toNat ++ sep :: quad sep ((y :: bs) ++ b') = _
      rw [hrest]
      simp [quad]

theorem quad_head {x : UInt8} {bs : Buf} : ∃ y ys, quad sep (x :: bs) = y :: ys ∧ y.isDigit = true := by
  obtain ⟨y, ys, hy⟩ := List.exists_cons_of_ne_nil (decimal_ne_nil x.toNat)
  have hdigit : y.isDigit = true := decimal_isDigit (by rw [hy]; exact List.mem_cons_self)
  cases bs with
  | nil => exact ⟨y, ys, hy, hdigit⟩
  | cons z bs =>
    refine ⟨y, ys ++ sep :: quad sep (z :: bs), ?_, hdigit⟩
    change decimal x.toNat ++ sep :: quad sep (z :: bs) = _
    rw [hy, List.cons_append]

theorem decimal_byte_length (x : UInt8) : (decimal x.toNat).length ≤ 3 := by
  have hx := x.toNat_lt
  exact (Nat.length_toDigits_le_iff (by decide) (by decide)).mpr (by omega)

theorem quad_length (sep : Char) (b : Buf) : (quad sep b).length ≤ 4 * b.length := by
  induction b with
  | nil => exact Nat.le_refl _
  | cons x bs ih =>
    have hx := decimal_byte_length x
    cases bs with
    | nil =>
      change (decimal x.toNat).length ≤ 4
      omega
    | cons y bs =>
      change (decimal x.toNat ++ sep :: quad sep (y :: bs)).length ≤ _
      rw [List.length_append, List.length_cons, List.length_cons]
      omega

theorem snprintf_short {n : ℕ} (h : t.length < n) : snprintf n t = t :=
  List.take_of_length_le (by omega)

theorem strrchr_none (h : c ∉ t) : strrchr c t = none := by
  induction t with
  | nil => rfl
  | cons x t ih =>
    rw [List.mem_cons, not_or] at h
    rw [strrchr, ih h.2]
    exact if_neg (fun heq => h.1 heq.symm)

theorem strrchr_last (h : c ∉ t) : strrchr c (u ++ c :: t) = some (c :: t) := by
  induction u with
  | nil =>
    rw [List.nil_append, strrchr, strrchr_none h]
    exact if_pos rfl
  | cons x u ih => rw [List.cons_append, strrchr, ih]

/-- A line that starts with the head, where the last blank stands before `t`. -/
theorem ftpscan_line {head tail : Text} (hhead : '*' ∉ head) (hstart : head.isPrefixOf d)
    (hd : d.drop (head.length - 1) = u ++ ' ' :: t) (ht : ' ' ∉ t) :
    ftpscan d (head ++ '*' :: tail) = scanf (directives tail) (' ' :: t) := by
  have hall : ∀ c ∈ head, decide (c ≠ '*') = true := by
    intro c hc
    apply decide_eq_true
    rintro rfl
    exact hhead hc
  have htake : (head ++ '*' :: tail).takeWhile (· ≠ '*') = head := by
    rw [List.takeWhile_append_of_pos hall, List.takeWhile_cons_of_neg (by simp), List.append_nil]
  have hdrop : (head ++ '*' :: tail).dropWhile (· ≠ '*') = '*' :: tail := by
    rw [List.dropWhile_append_of_pos hall, List.dropWhile_cons_of_neg (by simp)]
  simp only [ftpscan, htake, hdrop, hstart, hd, strrchr_last ht, Bool.not_true, Bool.false_eq_true,
    if_false]

/-! ### The lines that are written -/

theorem isSpace_quad (h : isSpace sep = false) {b : Buf} : ∀ x ∈ quad sep b, isSpace x = false := by
  intro x hx
  rcases quad_mem hx with hdigit | rfl
  · exact isSpace_of_isDigit hdigit
  · exact h

theorem ne_of_quad {x : Char} (hx : x.isDigit = false) (hsep : x ≠ sep) {b : Buf} :
    x ∉ quad sep b := by
  intro hmem
  rcases quad_mem hmem with hdigit | rfl
  · rw [hx] at hdigit
    cases hdigit
  · exact hsep rfl

theorem short_portBytes (p : ℕ) : shortAt (portBytes p) 0 = p % 65536 := by
  change (hi p).toNat * 256 + (lo p).toNat = _
  rw [lo_toNat]
  simp only [hi, UInt8.toNat_ofNat']
  omega

/-- Two bytes behind an address, read with two conversions. -/
theorem scanf_pair {x y : UInt8} {rest : List Directive} {tail : Text} {c : Char}
    (hc : c.isDigit = false) :
    scanf (.num 8 :: .lit ',' :: .num 8 :: rest)
        (decimal x.toNat ++ ',' :: (decimal y.toNat ++ c :: tail)) =
      x.toNat :: y.toNat :: scanf rest (c :: tail) := by
  have hx := x.toNat_lt
  have hy := y.toNat_lt
  rw [scanf_number (by decide) (by unfold ULONG_MAX; omega), scanf, if_pos rfl,
    scanf_number hc (by unfold ULONG_MAX; omega), Nat.mod_eq_of_lt hx, Nat.mod_eq_of_lt hy]

/-- The directives behind a blank, up to the conversions. -/
theorem scanf_behind {fmt : Text} (hu : ∀ x ∈ u, isSpace x = false) (hp : '%' ∉ u) (hne : u ≠ []) :
    scanf (directives (' ' :: (u ++ fmt))) (' ' :: (u ++ t)) = scanf (directives fmt) t := by
  have hparse : directives (' ' :: (u ++ fmt)) = .space :: (u.map plain ++ directives fmt) := by
    have hall : ∀ x ∈ ' ' :: u, x ≠ '%' := by
      intro x hx
      rcases List.mem_cons.mp hx with rfl | hmem
      · decide
      · rintro rfl
        exact hp hmem
    exact directives_append hall
  obtain ⟨y, ys, rfl⟩ := List.exists_cons_of_ne_nil hne
  rw [hparse, List.cons_append, scanf_space (hu y List.mem_cons_self), ← List.cons_append]
  exact scanf_plain hu

theorem addr4Bytes_quad (sep : Char) (a : ℕ) : (quad sep (addr4Bytes a)).length ≤ 16 :=
  quad_length sep (addr4Bytes a)

theorem pattern_port (a : ℕ) : Kind.port.pattern a =
    "PORT ".toList ++ '*' :: ' ' :: (quad ',' (addr4Bytes a) ++ [','] ++ "%hhu,%hhu\r\n".toList) := by
  have hquad := addr4Bytes_quad ',' a
  unfold Kind.pattern
  dsimp only
  rw [snprintf_short]
  · simp
  · simp
    omega

theorem pattern_pasv (a : ℕ) : Kind.pasv.pattern a =
    "227 ".toList ++ '*' :: ' ' ::
      ('(' :: quad ',' (addr4Bytes a) ++ [','] ++ "%hhu,%hhu)\r\n".toList) := by
  have hquad := addr4Bytes_quad ',' a
  unfold Kind.pattern
  dsimp only
  rw [snprintf_short]
  · simp
  · simp
    omega

theorem pattern_eprt (a : ℕ) : Kind.eprt.pattern a =
    "EPRT ".toList ++ '*' :: ' ' ::
      ("|1|".toList ++ (quad '.' (addr4Bytes a) ++ "|%hu|\r\n".toList)) := by
  have hquad := addr4Bytes_quad '.' a
  unfold Kind.pattern
  dsimp only
  rw [snprintf_short]
  · simp
  · simp
    omega

theorem pattern_epsv (a : ℕ) : Kind.epsv.pattern a =
    "229 ".toList ++ '*' :: ' ' :: ("(|||".toList ++ "%hu|\r\n".toList) := by
  unfold Kind.pattern
  simp

theorem quad_port (sep : Char) (a p : ℕ) : quad sep (addr4Bytes a ++ portBytes p) =
    quad sep (addr4Bytes a) ++ sep :: (decimal (hi p).toNat ++ sep :: decimal (lo p).toNat) :=
  quad_append (List.cons_ne_nil _ _) (List.cons_ne_nil _ _)

theorem blank_decimal (n : ℕ) : ' ' ∉ decimal n := fun h => absurd (decimal_isDigit h) (by decide)

/-- The two numbers of a line with the port in bytes. -/
theorem ftpscan_port (a p : ℕ) :
    ftpscan (Kind.port.line a p) (Kind.port.pattern a) = [(hi p).toNat, (lo p).toNat] := by
  have hquad := quad_length ',' (addr4Bytes a ++ portBytes p)
  have hline : Kind.port.line a p = "PORT".toList ++ ' ' ::
      (quad ',' (addr4Bytes a) ++ [','] ++
        (decimal (hi p).toNat ++ ',' :: (decimal (lo p).toNat ++ '\r' :: ['\n']))) := by
    unfold Kind.line
    dsimp only
    rw [snprintf_short, quad_port]
    · simp
    · simp [addr4Bytes, portBytes] at hquad ⊢
      omega
  have hblank : ' ' ∉ quad ',' (addr4Bytes a) ++ [','] ++
      (decimal (hi p).toNat ++ ',' :: (decimal (lo p).toNat ++ '\r' :: ['\n'])) := by
    have hq : ' ' ∉ quad ',' (addr4Bytes a) := ne_of_quad (by decide) (by decide)
    simp [blank_decimal, hq]
  rw [hline, pattern_port, ftpscan_line (by decide) (by simp [List.isPrefixOf]) rfl hblank]
  rw [scanf_behind]
  · exact scanf_pair (by decide)
  · intro x hx
    rcases List.mem_append.mp hx with hmem | hmem
    · exact isSpace_quad (by decide) x hmem
    · rw [List.mem_singleton] at hmem
      subst hmem
      decide
  · have hq : '%' ∉ quad ',' (addr4Bytes a) := ne_of_quad (by decide) (by decide)
    simp [hq]
  · simp

theorem ftpscan_pasv (a p : ℕ) :
    ftpscan (Kind.pasv.line a p) (Kind.pasv.pattern a) = [(hi p).toNat, (lo p).toNat] := by
  have hquad := quad_length ',' (addr4Bytes a ++ portBytes p)
  have hline : Kind.pasv.line a p = "227".toList ++ " Entering Passive Mode".toList ++ ' ' ::
      ('(' :: quad ',' (addr4Bytes a) ++ [','] ++
        (decimal (hi p).toNat ++ ',' :: (decimal (lo p).toNat ++ ')' :: ['\r', '\n']))) := by
    unfold Kind.line
    dsimp only
    rw [snprintf_short, quad_port]
    · simp
    · simp [addr4Bytes, portBytes] at hquad ⊢
      omega
  have hblank : ' ' ∉ '(' :: quad ',' (addr4Bytes a) ++ [','] ++
      (decimal (hi p).toNat ++ ',' :: (decimal (lo p).toNat ++ ')' :: ['\r', '\n'])) := by
    have hq : ' ' ∉ quad ',' (addr4Bytes a) := ne_of_quad (by decide) (by decide)
    simp [blank_decimal, hq]
  rw [hline, pattern_pasv, ftpscan_line (by decide) (by simp [List.isPrefixOf]) rfl hblank]
  rw [scanf_behind]
  · exact scanf_pair (by decide)
  · intro x hx
    rcases List.mem_append.mp hx with hmem | hmem
    · rcases List.mem_cons.mp hmem with rfl | hmem
      · decide
      · exact isSpace_quad (by decide) x hmem
    · rw [List.mem_singleton] at hmem
      subst hmem
      decide
  · have hq : '%' ∉ quad ',' (addr4Bytes a) := ne_of_quad (by decide) (by decide)
    simp [hq]
  · simp

theorem ftpscan_epsv (a p : ℕ) :
    ftpscan (Kind.epsv.line a p) (Kind.epsv.pattern a) = [p % 65536] := by
  have hport : p % 65536 < 10 ^ 5 := by
    have := Nat.mod_lt p (show 65536 > 0 by decide)
    omega
  have hlen : (decimal (p % 65536)).length ≤ 5 :=
    (Nat.length_toDigits_le_iff (by decide) (by decide)).mpr hport
  have hline : Kind.epsv.line a p = "229".toList ++ " Entering Extended Passive Mode".toList ++ ' ' ::
      ("(|||".toList ++ (decimal (p % 65536) ++ '|' :: ")\r\n".toList)) := by
    unfold Kind.line
    dsimp only
    rw [short_portBytes, snprintf_short]
    · simp
    · simp
      omega
  have hblank : ' ' ∉ "(|||".toList ++ (decimal (p % 65536) ++ '|' :: ")\r\n".toList) := by
    simp [blank_decimal]
  rw [hline, pattern_epsv, ftpscan_line (by decide) (by simp [List.isPrefixOf]) rfl hblank]
  rw [scanf_behind (by simp; decide) (by simp) (by simp)]
  change scanf (.num 16 :: _) _ = _
  have hbits : (2 : ℕ) ^ 16 = 65536 := rfl
  rw [scanf_number (by decide) (by unfold ULONG_MAX; omega), hbits, Nat.mod_mod]
  rfl

/-- The second bar stands in the place of the address. -/
theorem ftpscan_eprt (a p : ℕ) : ftpscan (Kind.eprt.line a p) (Kind.eprt.pattern a) = [] := by
  have hquad := quad_length '.' (addr4Bytes a)
  have hport : p % 65536 < 10 ^ 5 := by
    have := Nat.mod_lt p (show 65536 > 0 by decide)
    omega
  have hlen : (decimal (p % 65536)).length ≤ 5 :=
    (Nat.length_toDigits_le_iff (by decide) (by decide)).mpr hport
  have hline : Kind.eprt.line a p = "EPRT".toList ++ ' ' ::
      ("|1|".toList ++
        ('|' :: (quad '.' (addr4Bytes a) ++ '|' :: (decimal (p % 65536) ++ "|\r\n".toList)))) := by
    unfold Kind.line
    dsimp only
    rw [short_portBytes, snprintf_short]
    · simp
    · simp [addr4Bytes] at hquad ⊢
      omega
  have hblank : ' ' ∉ "|1|".toList ++
      ('|' :: (quad '.' (addr4Bytes a) ++ '|' :: (decimal (p % 65536) ++ "|\r\n".toList))) := by
    have hq : ' ' ∉ quad '.' (addr4Bytes a) := ne_of_quad (by decide) (by decide)
    simp [blank_decimal, hq]
  rw [hline, pattern_eprt, ftpscan_line (by decide) (by simp [List.isPrefixOf]) rfl hblank]
  rw [scanf_behind (by simp; decide) (by simp) (by simp)]
  obtain ⟨y, ys, hy, hdigit⟩ : ∃ y ys, quad '.' (addr4Bytes a) = y :: ys ∧ y.isDigit = true :=
    quad_head
  have hne : y ≠ '%' := by
    rintro rfl
    exact absurd hdigit (by decide)
  have hbar : y ≠ '|' := by
    rintro rfl
    exact absurd hdigit (by decide)
  have hfirst : directives (quad '.' (addr4Bytes a) ++ "|%hu|\r\n".toList) =
      .lit y :: directives (ys ++ "|%hu|\r\n".toList) := by
    have hcons : directives ([y] ++ (ys ++ "|%hu|\r\n".toList)) =
        [y].map plain ++ directives (ys ++ "|%hu|\r\n".toList) :=
      directives_append (by simpa using hne)
    have hplain : plain y = .lit y := by
      rw [plain, isSpace_of_isDigit hdigit]
      rfl
    rw [hy, List.cons_append]
    change directives ([y] ++ (ys ++ "|%hu|\r\n".toList)) = _
    rw [hcons, List.map_singleton, hplain]
    rfl
  rw [hfirst, scanf, if_neg (fun h => hbar h.symm)]

/-- A line has the head of its pattern. -/
theorem ftpscan_head {head tail : Text} (hhead : '*' ∉ head)
    (h : ftpscan d (head ++ '*' :: tail) ≠ []) : head.isPrefixOf d = true := by
  have hall : ∀ c ∈ head, decide (c ≠ '*') = true := by
    intro c hc
    apply decide_eq_true
    rintro rfl
    exact hhead hc
  have htake : (head ++ '*' :: tail).takeWhile (· ≠ '*') = head := by
    rw [List.takeWhile_append_of_pos hall, List.takeWhile_cons_of_neg (by simp), List.append_nil]
  have hdrop : (head ++ '*' :: tail).dropWhile (· ≠ '*') = '*' :: tail := by
    rw [List.dropWhile_append_of_pos hall, List.dropWhile_cons_of_neg (by simp)]
  by_contra hno
  rw [Bool.not_eq_true] at hno
  apply h
  simp only [ftpscan, htake, hdrop, hno, Bool.not_false, if_true]

/-- No line is a 227 and a 229 reply. -/
theorem epsv_not_pasv (h : ftpscan d (Kind.epsv.pattern a) ≠ []) :
    ftpscan d (Kind.pasv.pattern a) = [] := by
  by_contra hne
  rw [pattern_epsv] at h
  rw [pattern_pasv] at hne
  have h229 := ftpscan_head (by decide) h
  have h227 := ftpscan_head (by decide) hne
  rw [List.isPrefixOf_iff_prefix] at h229 h227
  obtain ⟨t, rfl⟩ := h229
  obtain ⟨u, hu⟩ := h227
  simp at hu

end Scan

/-! ### Data connections -/

theorem getFtptempdata_sport {cfg : Conf} {env : NatEnv} {n0 td : NatEntry} {np : ℕ} {s s' : State}
    (h : getFtptempdata cfg env n0 np s = (s', some td)) : td.sport = np := by
  unfold getFtptempdata at h
  split at h
  · next n hfind =>
    obtain ⟨-, rfl⟩ : s = s' ∧ n = td := by simpa using h
    have := List.find?_some hfind
    simpa using this
  · split at h
    · cases h
    · dsimp only at h
      split at h
      · cases h
      · split at h
        · cases h
        · next hnew =>
          obtain ⟨-, -, ⟨hnone, -⟩ | ⟨port, hport, -⟩⟩ := newNat_made hnew
          · cases hnone
          · obtain ⟨-, rfl⟩ := Prod.mk.inj h |>.imp id Option.some.inj
            rw [Option.some.inj hport]
            rfl

/-- The entry of a data connection has the port of the line, and the line written for it
    announces its outside port to whoever scans it. -/
structure Opened (k : Kind) (P : ℕ) (td : NatEntry) (line : Text) : Prop where
  inside : td.sport = P
  outside : announced k td.nsrc line = some (td.nport % 65536)

section Lines

variable {cfg : Conf} {env : NatEnv} {server : Bool} {p : UInt8 × UInt8} {n td : NatEntry} {b : Buf}
  {s s' : State} {k : Kind} {line : Text} {a P : ℕ}

theorem patchFtpline_cases
    (h : patchFtpline cfg env server p n b s = (s', some (some (k, td, line)))) :
    ∃ q, recognise server n.src (cstr b) p = some (k, q) ∧
      td.sport = q.1.toNat * 256 + q.2.toNat ∧ line = k.line td.nsrc td.nport := by
  unfold patchFtpline at h
  split at h
  · cases h
  · split at h
    · cases h
    · next k' q hrec =>
      split at h
      · cases h
      · next s₁ td' hdata =>
        obtain ⟨-, rfl, rfl, rfl⟩ : _ = s' ∧ k' = k ∧ td' = td ∧ _ = line := by simpa using h
        exact ⟨q, hrec, getFtptempdata_sport hdata, rfl⟩

/-- What is recognised as one of the two kinds of a side. -/
theorem recognise_cases {d : Text} {q : UInt8 × UInt8} (h : recognise server a d p = some (k, q)) :
    ((k = .port ∨ k = .pasv) ∧ ∃ x y, ftpscan d (k.pattern a) = [x, y] ∧
      q = (UInt8.ofNat x, UInt8.ofNat y)) ∨
    (k = .eprt ∧ ∃ x, ftpscan d (k.pattern a) = [x]) ∨
    (k = .epsv ∧ ∃ x, ftpscan d (k.pattern a) = [x] ∧ q = p) := by
  cases server with
  | false =>
    simp only [recognise, Bool.false_eq_true, if_false] at h
    split at h
    · next hlen =>
      obtain ⟨x, y, hxy⟩ := List.length_eq_two.mp hlen
      obtain ⟨rfl, rfl⟩ : Kind.port = k ∧ scanned p _ = q := by simpa using h
      exact .inl ⟨.inl rfl, x, y, hxy, by rw [hxy]; rfl⟩
    · split at h
      · next hlen =>
        obtain ⟨x, hx⟩ := List.length_eq_one_iff.mp hlen
        obtain ⟨rfl, -⟩ : Kind.eprt = k ∧ _ = q := by simpa using h
        exact .inr (.inl ⟨rfl, x, hx⟩)
      · cases h
  | true =>
    simp only [recognise, if_true] at h
    split at h
    · next hlen =>
      obtain ⟨x, y, hxy⟩ := List.length_eq_two.mp hlen
      obtain ⟨rfl, rfl⟩ : Kind.pasv = k ∧ scanned p _ = q := by simpa using h
      exact .inl ⟨.inr rfl, x, y, hxy, by rw [hxy]; rfl⟩
    · split at h
      · next hlen =>
        obtain ⟨x, hx⟩ := List.length_eq_one_iff.mp hlen
        obtain ⟨rfl, rfl⟩ : Kind.epsv = k ∧ scanned p _ = q := by simpa using h
        have hnone := epsv_not_pasv (d := d) (a := a) (by rw [hx]; exact List.cons_ne_nil x [])
        exact .inr (.inr ⟨rfl, x, hx, by rw [hnone]; rfl⟩)
      · cases h

theorem announced_line_bytes {Q : ℕ} (hk : k = .port ∨ k = .pasv) :
    announced k a (k.line a Q) = some (Q % 65536) := by
  have hvalue : (UInt8.ofNat (hi Q).toNat).toNat * 256 + (UInt8.ofNat (lo Q).toNat).toNat =
      Q % 65536 := by
    rw [UInt8.ofNat_toNat, UInt8.ofNat_toNat]
    exact short_portBytes Q
  rcases hk with rfl | rfl
  · simp only [announced, ftpscan_port, hvalue]
  · simp only [announced, ftpscan_pasv, hvalue]

/-- The announced port is opened and passed on for `PORT` and 227. `EPRT` and 229 hand
    over bytes that no scan has written, and an `EPRT` line is written wrong. -/
theorem ftp_lines (h : patchFtpline cfg env server p n b s = (s', some (some (k, td, line)))) :
    ∃ P, announced k n.src (cstr b) = some P ∧
      (Opened k P td line ↔
        k = .port ∨ k = .pasv ∨ k = .epsv ∧ p.1.toNat * 256 + p.2.toNat = P) := by
  obtain ⟨q, hrec, hsport, rfl⟩ := patchFtpline_cases h
  rcases recognise_cases hrec with ⟨hk, x, y, hscan, rfl⟩ | ⟨rfl, x, hscan⟩ | ⟨rfl, x, hscan, rfl⟩
  · refine ⟨(UInt8.ofNat x).toNat * 256 + (UInt8.ofNat y).toNat, ?_, ?_⟩
    · rcases hk with rfl | rfl <;> simp only [announced, hscan]
    · constructor
      · intro _
        exact hk.imp_right .inl
      · intro _
        exact ⟨hsport, announced_line_bytes hk⟩
  · refine ⟨x % 65536, by simp only [announced, hscan], ?_⟩
    constructor
    · intro hopened
      have hout := hopened.outside
      simp only [announced, ftpscan_eprt] at hout
      cases hout
    · intro hno
      simp at hno
  · refine ⟨x % 65536, by simp only [announced, hscan], ?_⟩
    constructor
    · intro hopened
      exact .inr (.inr ⟨rfl, hsport.symm.trans hopened.inside⟩)
    · intro hok
      have hjunk : q.1.toNat * 256 + q.2.toNat = x % 65536 := by simpa using hok
      refine ⟨hsport.trans hjunk, ?_⟩
      simp only [announced, ftpscan_epsv, Nat.mod_mod]

end Lines

/-- A control connection of 10.0.0.1 with the entry of its data connection. -/
def controlEntry : NatEntry :=
  { ptr := 1, tunnel := 1, proto := .tcp, flags := { matchPort := true }, src := 0x0a000001,
    nsrc := 0xcb007109, dst := 0xc6336405, sport := 1024, nport := 4000, dport := 21 }

def dataEntry : NatEntry :=
  { ptr := 2, tunnel := 1, proto := .tcp, flags := { allDst := true, matchPort := true, ftpData := true },
    src := 0x0a000001, nsrc := 0xcb007109, dst := 0xc6336405, sport := 1025, nport := 5000 }

def openState : State := { nats := { xlist := fun ptr => if ptr = 1 then [dataEntry] else [] } }

/-- `PORT 10,0,0,1,4,1` and `EPRT |1|10.0.0.1|1025|`. -/
def portLine : Buf := [80, 79, 82, 84, 32, 49, 48, 44, 48, 44, 48, 44, 49, 44, 52, 44, 49, 13, 10]

def eprtLine : Buf :=
  [69, 80, 82, 84, 32, 124, 49, 124, 49, 48, 46, 48, 46, 48, 46, 49, 124, 49, 48, 50, 53, 124, 13, 10]

theorem ftp_lines_port :
    ∃ line, Opened .port 1025 dataEntry line ∧
      (patchFtpline defaultConf ⟨plainEnv.toEnv, fun _ _ => 0⟩ false (0, 0) controlEntry portLine
        openState).2 = some (some (.port, dataEntry, line)) := by
  have hline : (patchFtpline defaultConf ⟨plainEnv.toEnv, fun _ _ => 0⟩ false (0, 0) controlEntry
      portLine openState).2 = some (some (.port, dataEntry, Kind.port.line 0xcb007109 5000)) := by
    decide +kernel
  obtain ⟨P, hP, hiff⟩ := ftp_lines (Prod.ext rfl hline)
  have hport : announced .port 0x0a000001 (cstr portLine) = some 1025 := by decide +kernel
  obtain rfl := Option.some.inj (hP.symm.trans hport)
  exact ⟨_, hiff.mpr (.inl rfl), hline⟩

/-- The line that is written for an `EPRT` command announces nothing. -/
theorem eprt_not_opened :
    ¬∀ (cfg : Conf) (env : NatEnv) (server : Bool) (p : UInt8 × UInt8) (n td : NatEntry) (b : Buf)
      (s s' : State) (k : Kind) (line : Text),
      patchFtpline cfg env server p n b s = (s', some (some (k, td, line))) →
      ∃ P, announced k n.src (cstr b) = some P ∧ Opened k P td line := by
  intro hall
  have hline : (patchFtpline defaultConf ⟨plainEnv.toEnv, fun _ _ => 0⟩ false (4, 1) controlEntry
      eprtLine openState).2 = some (some (.eprt, dataEntry, Kind.eprt.line 0xcb007109 5000)) := by
    decide +kernel
  obtain ⟨P, -, hopened⟩ := hall _ _ _ _ _ _ _ _ _ _ _ (Prod.ext rfl hline)
  have hnone : announced .eprt 0xcb007109 (Kind.eprt.line 0xcb007109 5000) = none := by
    decide +kernel
  exact absurd (hnone.symm.trans hopened.outside) (by simp)

end WanStack.Aftr.Ftp
