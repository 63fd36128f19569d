import WanStack.Racoon.SaChain

set_option autoImplicit false

/-!
# Encrypting and decrypting messages

`oakley_do_encrypt` and `oakley_do_decrypt`, with the padding that goes behind a
message. The ciphers of OpenSSL and `eay_random` are parameters; the algorithm of a
phase 1 is one of the table. Memory suffices for a size that an `int` holds.
-/
namespace WanStack.Racoon.Oakley
open Aftr (Buf)
open Proposal (long)

/-- The padding of `localconf`. `padMaxsize` holds the bits of an `int`. -/
structure PadConf where
  padRandom : Bool
  padRandomlen : Bool
  padMaxsize : UInt32
  padStrict : Bool
  padExcltail : Bool

/-- An entry of `oakley_encdef`: what is encrypted in whole blocks is decrypted with the
    same key and IV. -/
structure EncAlgorithm where
  blocklen : ℕ
  encrypt : Buf → Buf → Buf → Option Buf
  decrypt : Buf → Buf → Buf → Option Buf
  blocklen_eq : blocklen = 8 ∨ blocklen = 16
  inverts : ∀ data key iv, data.length % blocklen = 0 →
    ∃ c, encrypt data key iv = some c ∧ c.length = data.length ∧ decrypt c key iv = some data

/-- `oakley_padlen`; `none` where it divides by 0. -/
def oakleyPadlen (lcconf : PadConf) (rand : UInt32) (len base : ℕ) : Option ℕ :=
  let padlen := base - len % base
  if lcconf.padRandomlen then
    if lcconf.padMaxsize + 1 = 0 then none
    else some ((padlen + ((rand % (lcconf.padMaxsize + 1)).toNat + 1) * base) % 4294967296)
  else some padlen

/-- The padding before its tail is made. -/
def padBytes (lcconf : PadConf) (rand : ℕ → UInt32) (padlen : ℕ) : Buf :=
  if lcconf.padRandom then (List.range padlen).map fun i => (rand (i + 1)).toUInt8
  else List.replicate padlen 0

/-- The byte at the end of the padding. -/
def padTail (lcconf : PadConf) (padlen : ℕ) : UInt8 :=
  if lcconf.padExcltail then UInt8.ofNat padlen - 1 else UInt8.ofNat padlen

/-- The last block, in a buffer of `ivl` bytes. -/
def savedIv (blen ivl : ℕ) (buf : Buf) : Buf := buf.drop (buf.length - blen) ++ List.replicate (ivl - blen) 0

/-- The header of a message in front of a body, with its length set. -/
def withLen (msg body : Buf) : Buf := msg.take 24 ++ (long (ISAKMP_LEN + body.length) ++ body)

/-- `oakley_do_encrypt`: the message and the IV for the next one; `none` where it does not
    return a message. -/
def oakleyDoEncrypt (alg : EncAlgorithm) (lcconf : PadConf) (rand : ℕ → UInt32) (msg key ivep : Buf) (ivl : ℕ) :
    Option (Buf × Buf) :=
  let len := msg.length - ISAKMP_LEN
  if msg.length < ISAKMP_LEN then none
  else (oakleyPadlen lcconf (rand 0) len alg.blocklen).bind fun padlen =>
    if len + padlen = 0 ∨ 2147483648 ≤ ISAKMP_LEN + len + padlen then none
    else
      let buf := (msg.drop ISAKMP_LEN ++ padBytes lcconf rand padlen).set (len + padlen - 1) (padTail lcconf padlen)
      (alg.encrypt buf key ivep).map fun new => (withLen msg new, savedIv alg.blocklen ivl new)

/-- The padding is trimmed by the byte at its end, if it is to be trimmed. -/
def trimmed (lcconf : PadConf) (new : Buf) : Option Buf :=
  match new.getLast? with
  | none => none
  | some last =>
    let padlen := if lcconf.padExcltail then last + 1 else last
    if lcconf.padStrict then
      if new.length < padlen.toNat then none else some (new.take (new.length - padlen.toNat))
    else some new

/-- `oakley_do_decrypt`: the message, if there is one, and the IV for the next one.
    `before` is the memory in front of the message. -/
def oakleyDoDecrypt (alg : EncAlgorithm) (lcconf : PadConf) (before msg key ivdp : Buf) (ivl : ℕ) :
    Option Buf × Buf :=
  let ivep := savedIv alg.blocklen ivl (before ++ msg)
  if msg.length < ISAKMP_LEN ∨ 2147483648 ≤ msg.length then (none, ivep)
  else (((alg.decrypt (msg.drop ISAKMP_LEN) key ivdp).bind (trimmed lcconf)).map (withLen msg), ivep)

/-- Where `oakley_do_decrypt` reads, counted from the start of the message: the last block,
    what is behind the header, and the header of a message that is decrypted. -/
def decryptReads (alg : EncAlgorithm) (lcconf : PadConf) (before msg key ivdp : Buf) (ivl : ℕ) : List ℤ :=
  (List.range alg.blocklen).map (fun (i : ℕ) => (msg.length : ℤ) - alg.blocklen + i) ++
    (if msg.length < ISAKMP_LEN ∨ 2147483648 ≤ msg.length then []
      else (List.range (msg.length - ISAKMP_LEN)).map (fun (i : ℕ) => (ISAKMP_LEN : ℤ) + i)) ++
    if (oakleyDoDecrypt alg lcconf before msg key ivdp ivl).1.isSome then
      (List.range ISAKMP_LEN).map fun (i : ℕ) => (i : ℤ)
    else []

/-! ### What is claimed, and when -/

/-- The message comes back with its length, and both sides save one IV. -/
def RoundTrips (alg : EncAlgorithm) (lcconf : PadConf) (rand : ℕ → UInt32) (before msg key iv : Buf) (ivl : ℕ) : Prop :=
  ∃ out ivp, oakleyDoEncrypt alg lcconf rand msg key iv ivl = some (out, ivp) ∧
    oakleyDoDecrypt alg lcconf before out key iv ivl = (some (withLen msg (msg.drop ISAKMP_LEN)), ivp)

/-- The padding of a body: to the end of the block, and the random number of blocks. -/
def padTotal (alg : EncAlgorithm) (lcconf : PadConf) (rand : UInt32) (len : ℕ) : ℕ :=
  (alg.blocklen - len % alg.blocklen +
    if lcconf.padRandomlen then ((rand % (lcconf.padMaxsize + 1)).toNat + 1) * alg.blocklen else 0) % 4294967296

/-- The padding goes into a byte. Where it is 0 by an overflow the tail replaces the last
    byte of the body. -/
structure PadFits (alg : EncAlgorithm) (lcconf : PadConf) (rand : UInt32) (body : Buf) : Prop where
  divides : lcconf.padRandomlen = true → lcconf.padMaxsize ≠ 0xffffffff
  size : ISAKMP_LEN + body.length + padTotal alg lcconf rand body.length < 2147483648
  byte : padTotal alg lcconf rand body.length < 256
  tail : padTotal alg lcconf rand body.length = 0 → body.getLast? = some (padTail lcconf 0)

/-! ### Encrypting and decrypting again -/

section Padding
variable (alg : EncAlgorithm) (lcconf : PadConf) (rand : ℕ → UInt32)

theorem oakleyPadlen_eq (r : UInt32) (len : ℕ) :
    oakleyPadlen lcconf r len alg.blocklen =
      if lcconf.padRandomlen = true ∧ lcconf.padMaxsize = 0xffffffff then none
      else some (padTotal alg lcconf r len) := by
  have hzero : lcconf.padMaxsize + 1 = 0 ↔ lcconf.padMaxsize = 0xffffffff := by
    constructor
    · intro h
      have hnat := congrArg UInt32.toNat h
      have hlt := lcconf.padMaxsize.toNat_lt
      rw [UInt32.toNat_add] at hnat
      apply UInt32.toNat_inj.mp
      change (lcconf.padMaxsize.toNat + 1) % 2 ^ 32 = 0 at hnat
      change lcconf.padMaxsize.toNat = 4294967295
      omega
    · intro h
      rw [h]
      rfl
  have hbase : alg.blocklen ≤ 16 := by
    obtain h | h := alg.blocklen_eq <;> omega
  unfold oakleyPadlen padTotal
  cases lcconf.padRandomlen with
  | false =>
    have hlt : alg.blocklen - len % alg.blocklen < 4294967296 := by
      have hsub := Nat.sub_le alg.blocklen (len % alg.blocklen)
      omega
    rw [if_neg (by decide), if_neg (by simp), if_neg (by decide), Nat.add_zero, Nat.mod_eq_of_lt hlt]
  | true =>
    by_cases hm : lcconf.padMaxsize = 0xffffffff
    · simp [hm]
    · simp [hm, hzero]

theorem padBytes_length (padlen : ℕ) : (padBytes lcconf rand padlen).length = padlen := by
  unfold padBytes
  split <;> simp

/-- A body with its padding is a whole number of blocks. -/
theorem blocks_whole (r : UInt32) (len : ℕ) : (len + padTotal alg lcconf r len) % alg.blocklen = 0 := by
  unfold padTotal
  obtain h | h := alg.blocklen_eq <;> rw [h] <;> split <;> omega

/-- The body, its padding and the tail. -/
def padded (body : Buf) (padlen : ℕ) : Buf :=
  (body ++ padBytes lcconf rand padlen).set (body.length + padlen - 1) (padTail lcconf padlen)

theorem padded_length (body : Buf) (padlen : ℕ) : (padded lcconf rand body padlen).length = body.length + padlen := by
  simp [padded, padBytes_length]

theorem padded_getLast {body : Buf} {padlen : ℕ} (h : body.length + padlen ≠ 0) :
    (padded lcconf rand body padlen).getLast? = some (padTail lcconf padlen) := by
  have hlength : (body ++ padBytes lcconf rand padlen).length = body.length + padlen := by
    simp [padBytes_length]
  rw [padded, List.getLast?_eq_getElem?, List.length_set, hlength,
    List.getElem?_set_self (by omega)]

/-- The tail is read back as the padding modulo 256. -/
theorem trimmed_padded {body : Buf} {padlen : ℕ} (h : body.length + padlen ≠ 0) (hstrict : lcconf.padStrict = true) :
    trimmed lcconf (padded lcconf rand body padlen) =
      some ((padded lcconf rand body padlen).take (body.length + padlen - padlen % 256)) := by
  have hread : (if lcconf.padExcltail then padTail lcconf padlen + 1 else padTail lcconf padlen) = UInt8.ofNat padlen := by
    unfold padTail
    split
    · rw [UInt8.sub_add_cancel]
    · rfl
  have hle : padlen % 256 ≤ padlen := Nat.mod_le _ _
  rw [trimmed, padded_getLast lcconf rand h]
  dsimp only
  rw [if_pos hstrict, hread, padded_length, UInt8.toNat_ofNat', if_neg (by omega)]

theorem take_padded {body : Buf} {padlen : ℕ} (h : padlen ≠ 0) :
    (padded lcconf rand body padlen).take body.length = body := by
  rw [padded, List.take_set_of_le (by omega), List.take_left]

end Padding

theorem withLen_inj {msg a b : Buf} (h : withLen msg a = withLen msg b) : a = b := by
  have hdrop := List.append_cancel_left h
  have hlong : (long (ISAKMP_LEN + a.length)).length = (long (ISAKMP_LEN + b.length)).length := rfl
  exact (List.append_inj hdrop hlong).2

section RoundTrip
variable {alg : EncAlgorithm} {lcconf : PadConf} {rand : ℕ → UInt32} {msg : Buf} (before key iv : Buf) (ivl : ℕ)

theorem withLen_length (h : ISAKMP_LEN ≤ msg.length) (body : Buf) : (withLen msg body).length = ISAKMP_LEN + body.length := by
  simp only [withLen, List.length_append, List.length_take, Proposal.long_length]
  simp only [ISAKMP_LEN] at h ⊢
  omega

theorem withLen_drop (h : ISAKMP_LEN ≤ msg.length) (body : Buf) : (withLen msg body).drop ISAKMP_LEN = body := by
  rw [withLen, ← List.append_assoc]
  apply List.drop_left'
  simp only [List.length_append, List.length_take, Proposal.long_length]
  simp only [ISAKMP_LEN] at h ⊢
  omega

theorem withLen_withLen (h : ISAKMP_LEN ≤ msg.length) (body body' : Buf) :
    withLen (withLen msg body) body' = withLen msg body' := by
  have htake : (withLen msg body).take 24 = msg.take 24 := by
    apply List.take_left'
    rw [List.length_take]
    simp only [ISAKMP_LEN] at h
    omega
  rw [withLen, htake]
  rfl

/-- What is encrypted is decrypted, with the padding trimmed modulo 256, and one IV is
    saved on both sides. -/
theorem encrypt_decrypts (h : ISAKMP_LEN ≤ msg.length)
    (hdiv : ¬ (lcconf.padRandomlen = true ∧ lcconf.padMaxsize = 0xffffffff)) (hstrict : lcconf.padStrict = true)
    (hpos : msg.length - ISAKMP_LEN + padTotal alg lcconf (rand 0) (msg.length - ISAKMP_LEN) ≠ 0)
    (hsize : ISAKMP_LEN + (msg.length - ISAKMP_LEN) + padTotal alg lcconf (rand 0) (msg.length - ISAKMP_LEN) <
      2147483648) :
    ∃ out ivp, oakleyDoEncrypt alg lcconf rand msg key iv ivl = some (out, ivp) ∧
      oakleyDoDecrypt alg lcconf before out key iv ivl =
        (some (withLen msg
          ((padded lcconf rand (msg.drop ISAKMP_LEN) (padTotal alg lcconf (rand 0) (msg.length - ISAKMP_LEN))).take
            (msg.length - ISAKMP_LEN + padTotal alg lcconf (rand 0) (msg.length - ISAKMP_LEN) -
              padTotal alg lcconf (rand 0) (msg.length - ISAKMP_LEN) % 256))), ivp) := by
  have hbody : (msg.drop ISAKMP_LEN).length = msg.length - ISAKMP_LEN := List.length_drop
  have hwhole := blocks_whole alg lcconf (rand 0) (msg.length - ISAKMP_LEN)
  generalize hP : padTotal alg lcconf (rand 0) (msg.length - ISAKMP_LEN) = P at *
  have hlength := padded_length lcconf rand (msg.drop ISAKMP_LEN) P
  rw [hbody] at hlength
  obtain ⟨new, henc, hnew, hdec⟩ := alg.inverts (padded lcconf rand (msg.drop ISAKMP_LEN) P) key iv (by rw [hlength, hwhole])
  rw [hlength] at hnew
  refine ⟨withLen msg new, savedIv alg.blocklen ivl new, ?_, ?_⟩
  · rw [oakleyDoEncrypt, oakleyPadlen_eq, if_neg (by omega), if_neg hdiv, Option.bind_some, hP]
    dsimp only
    rw [if_neg (by omega)]
    rw [padded, hbody] at henc
    rw [henc]
    rfl
  · have hblock : alg.blocklen ≤ new.length := by
      rw [hnew]
      exact Nat.le_of_dvd (by omega) (Nat.dvd_of_mod_eq_zero hwhole)
    have hsaved : savedIv alg.blocklen ivl (before ++ withLen msg new) = savedIv alg.blocklen ivl new := by
      have hsplit : before ++ withLen msg new =
          (before ++ (msg.take 24 ++ long (ISAKMP_LEN + new.length))) ++ new := by
        simp [withLen]
      rw [savedIv, savedIv, hsplit, List.length_append, Nat.add_sub_assoc hblock, List.drop_length_add_append]
    rw [oakleyDoDecrypt, hsaved, withLen_length h, hnew, if_neg (by omega), withLen_drop h, hdec, Option.bind_some,
      trimmed_padded lcconf rand (by rw [hbody]; exact hpos) hstrict, Option.map_some, withLen_withLen h, hbody]

theorem roundTrips_of_fits (h : ISAKMP_LEN ≤ msg.length) (hstrict : lcconf.padStrict = true)
    (hfits : PadFits alg lcconf (rand 0) (msg.drop ISAKMP_LEN)) : RoundTrips alg lcconf rand before msg key iv ivl := by
  obtain ⟨hdiv, hsize, hbyte, htail⟩ := hfits
  have hbody : (msg.drop ISAKMP_LEN).length = msg.length - ISAKMP_LEN := List.length_drop
  rw [hbody] at hsize hbyte htail
  have hpos : msg.length - ISAKMP_LEN + padTotal alg lcconf (rand 0) (msg.length - ISAKMP_LEN) ≠ 0 := by
    intro h0
    have hempty : msg.drop ISAKMP_LEN = [] := List.eq_nil_of_length_eq_zero (by omega)
    have hlast := htail (by omega)
    rw [hempty] at hlast
    cases hlast
  obtain ⟨out, ivp, henc, hdec⟩ := encrypt_decrypts before key iv ivl h (fun hd => hdiv hd.1 hd.2) hstrict hpos hsize
  refine ⟨out, ivp, henc, ?_⟩
  rw [hdec, Nat.mod_eq_of_lt hbyte, Nat.add_sub_cancel]
  generalize padTotal alg lcconf (rand 0) (msg.length - ISAKMP_LEN) = P at *
  rw [← hbody]
  by_cases hP : P = 0
  · -- nothing is added, and the tail is there already
    have hlast := htail hP
    have hkept : padded lcconf rand (msg.drop ISAKMP_LEN) P = msg.drop ISAKMP_LEN := by
      have hnone : padBytes lcconf rand 0 = [] := List.eq_nil_of_length_eq_zero (padBytes_length lcconf rand 0)
      rw [List.getLast?_eq_getElem?] at hlast
      rw [padded, hP, hnone, List.append_nil, Nat.add_zero]
      apply List.ext_getElem?
      intro i
      by_cases hi : (msg.drop ISAKMP_LEN).length - 1 = i
      · rw [← hi, List.getElem?_set_self (by omega), hlast]
      · rw [List.getElem?_set_ne hi]
    rw [hkept, List.take_length]
  · rw [take_padded lcconf rand hP]

theorem fits_of_roundTrips (hstrict : lcconf.padStrict = true) (hrt : RoundTrips alg lcconf rand before msg key iv ivl) :
    ISAKMP_LEN ≤ msg.length ∧ PadFits alg lcconf (rand 0) (msg.drop ISAKMP_LEN) := by
  obtain ⟨out, ivp, henc, hdec⟩ := hrt
  have hbody : (msg.drop ISAKMP_LEN).length = msg.length - ISAKMP_LEN := List.length_drop
  have h : ISAKMP_LEN ≤ msg.length := by
    by_contra hshort
    rw [oakleyDoEncrypt, if_pos (by omega)] at henc
    cases henc
  have hdiv : ¬ (lcconf.padRandomlen = true ∧ lcconf.padMaxsize = 0xffffffff) := by
    intro hzero
    rw [oakleyDoEncrypt, if_neg (by omega), oakleyPadlen_eq, if_pos hzero] at henc
    cases henc
  have hbound : ¬ (msg.length - ISAKMP_LEN + padTotal alg lcconf (rand 0) (msg.length - ISAKMP_LEN) = 0 ∨
      2147483648 ≤ ISAKMP_LEN + (msg.length - ISAKMP_LEN) +
        padTotal alg lcconf (rand 0) (msg.length - ISAKMP_LEN)) := by
    intro hbad
    rw [oakleyDoEncrypt, if_neg (by omega), oakleyPadlen_eq, if_neg hdiv, Option.bind_some] at henc
    dsimp only at henc
    rw [if_pos hbad] at henc
    cases henc
  obtain ⟨hpos, hsize⟩ := not_or.mp hbound
  obtain ⟨out', ivp', henc', hdec'⟩ :=
    encrypt_decrypts before key iv ivl h hdiv hstrict hpos (Nat.lt_of_not_le hsize)
  rw [henc] at henc'
  cases henc'
  rw [hdec] at hdec'
  have hsame := withLen_inj (Option.some.inj (congrArg Prod.fst hdec'))
  have hlength := congrArg List.length hsame
  rw [List.length_take, padded_length, hbody] at hlength
  generalize hP : padTotal alg lcconf (rand 0) (msg.length - ISAKMP_LEN) = P at *
  have hbyte : P < 256 := by omega
  refine ⟨h, ⟨fun hr hm => hdiv ⟨hr, hm⟩, ?_, ?_, ?_⟩⟩
  · rw [hbody, hP]
    omega
  · rw [hbody, hP]
    exact hbyte
  · rw [hbody, hP]
    intro h0
    have hlast := @padded_getLast lcconf rand (msg.drop ISAKMP_LEN) P (by omega)
    rw [hsame, h0]
    rw [h0] at hlast
    rw [List.take_of_length_le (by rw [padded_length]; omega)]
    exact hlast

end RoundTrip

/-! ### Reading -/

theorem reads_inside_iff (alg : EncAlgorithm) (lcconf : PadConf) (before msg key ivdp : Buf) (ivl : ℕ) :
    (∀ o ∈ decryptReads alg lcconf before msg key ivdp ivl, 0 ≤ o ∧ o < msg.length) ↔ alg.blocklen ≤ msg.length := by
  constructor
  · intro h
    have hpos : 0 < alg.blocklen := by
      obtain hb | hb := alg.blocklen_eq <;> omega
    have hfirst := h ((msg.length : ℤ) - alg.blocklen + (0 : ℕ)) (by
      rw [decryptReads, List.append_assoc]
      exact List.mem_append_left _ (List.mem_map.mpr ⟨0, List.mem_range.mpr hpos, rfl⟩))
    omega
  · intro hblock o ho
    rw [decryptReads, List.mem_append, List.mem_append] at ho
    obtain (hiv | hrest) | hheader := ho
    · obtain ⟨i, hi, rfl⟩ := List.mem_map.mp hiv
      have hi := List.mem_range.mp hi
      omega
    · split at hrest
      · cases hrest
      · obtain ⟨i, hi, rfl⟩ := List.mem_map.mp hrest
        have hi := List.mem_range.mp hi
        omega
    · split at hheader
      · rename_i hsome
        have hlong : ¬ (msg.length < ISAKMP_LEN ∨ 2147483648 ≤ msg.length) := by
          intro hshort
          rw [oakleyDoDecrypt, if_pos hshort] at hsome
          cases hsome
        obtain ⟨i, hi, rfl⟩ := List.mem_map.mp hheader
        have hi := List.mem_range.mp hi
        omega
      · cases hheader

/-- A message comes back exactly if its padding fits, and a message is read inside exactly
    if it is as long as a block. -/
theorem padding_iff (alg : EncAlgorithm) (lcconf : PadConf) (rand : ℕ → UInt32) (before msg key iv : Buf) (ivl : ℕ) :
    (RoundTrips alg { lcconf with padStrict := true } rand before msg key iv ivl ↔
      ISAKMP_LEN ≤ msg.length ∧ PadFits alg { lcconf with padStrict := true } (rand 0) (msg.drop ISAKMP_LEN)) ∧
    ((∀ o ∈ decryptReads alg lcconf before msg key iv ivl, 0 ≤ o ∧ o < msg.length) ↔ alg.blocklen ≤ msg.length) := by
  refine ⟨⟨?_, ?_⟩, reads_inside_iff alg lcconf before msg key iv ivl⟩
  · exact fits_of_roundTrips before key iv ivl rfl
  · intro h
    exact roundTrips_of_fits before key iv ivl h.1 rfl h.2

/-- A cipher of AES's block length that leaves what it encrypts as it is. -/
def plain : EncAlgorithm where
  blocklen := 16
  encrypt := fun data _ _ => some data
  decrypt := fun data _ _ => some data
  blocklen_eq := Or.inr rfl
  inverts := fun data _ _ _ => ⟨data, rfl, rfl, rfl⟩

/-- A body of one byte with 20 more blocks of padding: 351 is no byte. -/
theorem long_padding_lost :
    ¬ RoundTrips plain
      { padRandom := false, padRandomlen := true, padMaxsize := 20, padStrict := true, padExcltail := true }
      (fun _ => 20) [] (List.replicate 29 0) [] (List.replicate 16 0) 16 := by
  intro h
  have hfits := (fits_of_roundTrips _ _ _ _ rfl h).2.byte
  exact absurd hfits (by decide)

end WanStack.Racoon.Oakley
