import WanStack.Racoon.IsakmpFrag
import WanStack.Racoon.SaPayload

set_option autoImplicit false

/-!
# Building the SA payload

`ipsecdoi_setph2proposal` and `setph2proposal0`: attributes are measured first,
the buffer is made longer, and fields are written into it at offsets.
-/
namespace WanStack.Racoon.Proposal
open Aftr (Buf byteAt shortAt hi lo)

def IPSECDOI_ATTR_SA_LD_KB_MAX : ℤ := 2147483647

/-- Values of `int`s as they are stored in fields of one, two and four bytes. -/
def u8 (v : ℤ) : UInt8 := UInt8.ofNat (v % 256).toNat
def u16 (v : ℤ) : ℕ := (v % 65536).toNat
def u32 (v : ℤ) : ℕ := (v % 4294967296).toNat

def long (n : ℕ) : Buf := short (n / 65536) ++ short n

/-- `memcpy` into a buffer. -/
def patch (b : Buf) (off : ℕ) (bs : Buf) : Buf := b.take off ++ bs ++ b.drop (off + bs.length)

def isakmpSetAttrL (type : ℕ) (val : ℤ) : Buf := short (type + 32768) ++ short (u16 val)

def isakmpSetAttrV (type : ℕ) (val : Buf) : Buf := short type ++ short val.length ++ val

/-- Whether a transform is left out: no encryption and no authentication. -/
def skipped (pr : Saproto) (tr : Satrns) : Bool :=
  pr.protoId = IPSECDOI_PROTO_IPSEC_ESP && tr.trnsId = IPSECDOI_ESP_NULL &&
    tr.authtype = IPSECDOI_ATTR_AUTH_NONE

/-- The length of the attributes; nothing where the function gives up. -/
def attrlen (pfsGroup : ℕ) (pp : Saprop) (pr : Saproto) (tr : Satrns) : Option ℕ :=
  let times :=
    (if pp.lifetime ≠ 0 then DATA_LEN + DATA_LEN + (if pp.lifetime > 0xffff then 4 else 0) else 0) +
    (if pp.lifebyte ≠ 0 ∧ pp.lifebyte ≠ IPSECDOI_ATTR_SA_LD_KB_MAX then
      DATA_LEN + DATA_LEN + (if pp.lifebyte > 0xffff then 4 else 0) else 0) +
    DATA_LEN + (if tr.encklen ≠ 0 then DATA_LEN else 0)
  let auth : Option ℕ :=
    if pr.protoId = IPSECDOI_PROTO_IPSEC_ESP then
      some (if tr.authtype ≠ IPSECDOI_ATTR_AUTH_NONE then DATA_LEN else 0)
    else if pr.protoId = IPSECDOI_PROTO_IPSEC_AH then
      if tr.authtype = IPSECDOI_ATTR_AUTH_NONE then none else some DATA_LEN
    else if pr.protoId = IPSECDOI_PROTO_IPCOMP then some 0
    else none
  auth.map fun auth => times + auth + (if algOakleyDhdefOk pfsGroup then DATA_LEN else 0)

/-- A life duration with its type. -/
def setLife (type : ℤ) (life : ℤ) : Buf :=
  isakmpSetAttrL IPSECDOI_ATTR_SA_LD_TYPE type ++
    if life > 0xffff then isakmpSetAttrV IPSECDOI_ATTR_SA_LD (long (u32 life))
    else isakmpSetAttrL IPSECDOI_ATTR_SA_LD life

/-- The attributes written one after the other. -/
def setAttrs (pfsGroup : ℕ) (pp : Saprop) (pr : Saproto) (tr : Satrns) : Buf :=
  (if pp.lifetime ≠ 0 then setLife IPSECDOI_ATTR_SA_LD_TYPE_SEC pp.lifetime else []) ++
    (if pp.lifebyte ≠ 0 ∧ pp.lifebyte ≠ IPSECDOI_ATTR_SA_LD_KB_MAX then
      setLife IPSECDOI_ATTR_SA_LD_TYPE_KB pp.lifebyte else []) ++
    isakmpSetAttrL IPSECDOI_ATTR_ENC_MODE pr.encmode ++
    (if tr.encklen ≠ 0 then isakmpSetAttrL IPSECDOI_ATTR_KEY_LENGTH tr.encklen else []) ++
    (if pr.protoId = IPSECDOI_PROTO_IPSEC_ESP ∧ tr.authtype ≠ IPSECDOI_ATTR_AUTH_NONE ∨
        pr.protoId = IPSECDOI_PROTO_IPSEC_AH then
      isakmpSetAttrL IPSECDOI_ATTR_AUTH tr.authtype else []) ++
    (if algOakleyDhdefOk pfsGroup then isakmpSetAttrL IPSECDOI_ATTR_GRP_DESC pfsGroup else [])

/-- The buffer `p`, the offset of the last transform (`np_t`) and of the next. -/
structure Building where
  p : Buf
  npT : Option ℕ
  trnsoff : ℕ

/-- One round for a transform. -/
def addTrns (pfsGroup : ℕ) (pp : Saprop) (pr : Saproto) (s : Building) (tr : Satrns) :
    Option Building :=
  if skipped pr tr then some s else
  let p :=
    match s.npT with
    | none => s.p
    | some npT =>
      let p := patch s.p npT [UInt8.ofNat ISAKMP_NPTYPE_T]
      patch p 7 [byteAt p 7 + 1]
  match attrlen pfsGroup pp pr tr with
  | none => none
  | some attrlen =>
    let p := p ++ List.replicate (PL_T_LEN + attrlen) 0
    let p := patch p s.trnsoff [UInt8.ofNat ISAKMP_NPTYPE_NONE]
    let p := patch p (s.trnsoff + 4) [u8 tr.trnsNo]
    let p := patch p (s.trnsoff + 5) [u8 tr.trnsId]
    let p := patch p (s.trnsoff + PL_T_LEN) (setAttrs pfsGroup pp pr tr)
    let p := patch p (s.trnsoff + 2) (short (PL_T_LEN + attrlen))
    some { p := p, npT := some s.trnsoff, trnsoff := s.trnsoff + (PL_T_LEN + attrlen) }

/-- `pfsGroup` is the one of the sainfo of `iph2`. -/
def setph2proposal0 (pfsGroup : ℕ) (pp : Saprop) (pr : Saproto) : Option Buf :=
  let size := if pr.protoId = IPSECDOI_PROTO_IPCOMP then 2 else 4
  let p : Buf := List.replicate (PL_P_LEN + size) 0
  let p := patch p 0 [UInt8.ofNat ISAKMP_NPTYPE_NONE]
  let p := patch p 4 [u8 pp.propNo, u8 pr.protoId]
  let p := patch p 6 [UInt8.ofNat size, 1]
  let p := patch p PL_P_LEN (pr.spi.drop (4 - size))
  let start : Building := { p := p, npT := none, trnsoff := PL_P_LEN + size }
  (pr.head.foldlM (addTrns pfsGroup pp pr) start).bind fun s =>
    match s.npT with
    | none => none
    | some _ => some (patch s.p 2 (short s.p.length))

/-- The payload so far, and the offset of its last proposal. -/
structure Sa where
  sa : Buf
  propoff : ℕ

/-- One round for a protocol; behind a NAT its mode is changed first. -/
def addProto (ph1 : Ph1) (pfsGroup : ℕ) (a : Saprop) (s : Sa) (b : Saproto) : Option Sa :=
  let b :=
    if ph1.natDetected then
      { b with encmode := b.encmode + ph1.natt.modeUdpDiff, udpEncap := true }
    else b
  (setph2proposal0 pfsGroup a b).map fun q =>
    let sa := s.sa ++ q
    { sa := if s.propoff ≠ 0 then patch sa s.propoff [UInt8.ofNat ISAKMP_NPTYPE_P] else sa
      propoff := sa.length - q.length }

def ipsecdoiSetph2proposal (ph1 : Ph1) (pfsGroup : ℕ) (proposal : List Saprop) : Option Buf :=
  let start : Sa := { sa := long IPSEC_DOI ++ long IPSECDOI_SIT_IDENTITY_ONLY, propoff := 0 }
  (proposal.foldlM (fun (s : Sa) (a : Saprop) => a.head.foldlM (addProto ph1 pfsGroup a) s) start).map Sa.sa

end WanStack.Racoon.Proposal
