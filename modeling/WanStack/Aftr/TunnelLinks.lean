import Mathlib.Data.Nat.Bitwise
import WanStack.Aftr.TunnelInv
import WanStack.Lib.LinkedTree
import WanStack.Lib.RadixPath

set_option autoImplicit false

/-!
# The tunnel tree in memory

The fields of `struct tunnel` the radix tree uses, by address; 0 is `NULL`, and `alloc` is
what `malloc` gave and `free` did not take back. A loop has fuel, and a read through `NULL`
ends in `none`. The PATRICIA messages of the log are not modelled.
-/
namespace WanStack.Aftr

/-- The `glue` of a node is the flag `TUNGLUE`. -/
structure TunnelTree extends LinkedTree.Links where
  bit : ℕ → ℕ
  key : ℕ → Addr6
  glue : ℕ → Bool
  alloc : List ℕ

def keyByte (k : Addr6) (i : ℕ) : ℕ := ((addr6Bytes k).getD i 0).toNat

/-- `key[bit >> 3] & (0x80 >> (bit & 7))`. -/
def keyBit (k : Addr6) (b : ℕ) : Bool := keyByte k (b >>> 3) &&& (0x80 >>> (b &&& 7)) ≠ 0

/-- The first bit set in a byte, from the left. -/
def firstBit (r : ℕ) : ℕ := ((List.range 8).find? fun j => r &&& (0x80 >>> j) ≠ 0).getD 8

/-- The loop over the bytes of two keys, from the byte `i` on. -/
def differLoop (a b : Addr6) (check i differ : ℕ) : ℕ :=
  if i <<< 3 < check then
    let r := keyByte a i ^^^ keyByte b i
    if r = 0 then differLoop a b check (i + 1) ((i + 1) <<< 3) else (i <<< 3) + firstBit r
  else differ
termination_by check - i <<< 3
decreasing_by
  simp only [Nat.shiftLeft_eq] at *
  omega

namespace TunnelTree

def left (s : TunnelTree) : ℕ → ℕ := s.child true

def right (s : TunnelTree) : ℕ → ℕ := s.child false

def setLeft (s : TunnelTree) (x v : ℕ) : TunnelTree :=
  { s with toLinks := s.toLinks.setChild true x v }

def setRight (s : TunnelTree) (x v : ℕ) : TunnelTree :=
  { s with toLinks := s.toLinks.setChild false x v }

def setParent (s : TunnelTree) (x v : ℕ) : TunnelTree :=
  { s with toLinks := s.toLinks.setParent x v }

def setRoot (s : TunnelTree) (v : ℕ) : TunnelTree := { s with toLinks := s.toLinks.setRoot v }

def setBit (s : TunnelTree) (x b : ℕ) : TunnelTree :=
  { s with bit := Function.update s.bit x b }

def setKey (s : TunnelTree) (x : ℕ) (k : Addr6) : TunnelTree :=
  { s with key := Function.update s.key x k }

def setGlue (s : TunnelTree) (x : ℕ) (v : Bool) : TunnelTree :=
  { s with glue := Function.update s.glue x v }

/-- `malloc` and `memset`. -/
def malloc (s : TunnelTree) (x : ℕ) : TunnelTree :=
  { (((((s.setLeft x 0).setRight x 0).setParent x 0).setBit x 0).setKey x 0).setGlue x false with
    alloc := x :: s.alloc }

def free (s : TunnelTree) (x : ℕ) : TunnelTree := { s with alloc := s.alloc.erase x }

/-- Put `new` where the parent of `node` links to it. -/
def relink (s : TunnelTree) (parent node new : ℕ) : TunnelTree :=
  if parent = 0 then s.setRoot new
  else if s.right parent = node then s.setRight parent new
  else s.setLeft parent new

/-- The loop of `tunnel_tree_find`. -/
def findLoop : ℕ → Addr6 → ℕ → TunnelTree → Option ℕ
  | 0, _, _, _ => none
  | fuel + 1, k, node, s =>
    if s.bit node < MAXTUNBIT then
      let node := if keyBit k (s.bit node) then s.right node else s.left node
      if node = 0 then some 0 else findLoop fuel k node s
    else some node

def tunnelTreeFind (fuel : ℕ) (k : Addr6) (s : TunnelTree) : Option ℕ :=
  if s.root = 0 then some 0
  else
    (findLoop fuel k s.root s).map fun node =>
      if node = 0 then 0
      else if MAXTUNBIT < s.bit node ∨ s.glue node then 0
      else if s.key node = k then node
      else 0

/-- The way down of `tunnel_tree_insert`. -/
def descend : ℕ → Addr6 → ℕ → TunnelTree → Option ℕ
  | 0, _, _, _ => none
  | fuel + 1, k, node, s =>
    if s.bit node < MAXTUNBIT ∨ s.glue node then
      let next := if keyBit k (s.bit node) then s.right node else s.left node
      if next = 0 then some node else descend fuel k next s
    else some node

/-- The way up of `tunnel_tree_insert`. -/
def climb : ℕ → ℕ → ℕ → TunnelTree → Option ℕ
  | 0, _, _, _ => none
  | fuel + 1, differ, node, s =>
    let parent := s.parent node
    if parent ≠ 0 ∧ differ ≤ s.bit parent then climb fuel differ parent s else some node

/-- A new glue node `g` over `t` and `node`. -/
def newGlue (s : TunnelTree) (t g node differ : ℕ) : TunnelTree :=
  let s := (s.malloc g).setGlue g true
  let s := s.setParent g (s.parent node)
  let s := s.setBit g differ
  let s := if differ < MAXTUNBIT ∧ keyBit (s.key t) differ then (s.setRight g t).setLeft g node
    else (s.setRight g node).setLeft g t
  s.setParent t g

/-- Put the new node `g` in the place of `node`. -/
def replace (s : TunnelTree) (node g : ℕ) : TunnelTree :=
  (s.relink (s.parent node) node g).setParent node g

/-- The state, the return value and `*exposing`; `glue` is what `malloc` gives. -/
def tunnelTreeInsert (fuel t : ℕ) (glue : Option ℕ) (s : TunnelTree) :
    Option (TunnelTree × ℕ × Bool) :=
  if s.root = 0 then
    some ((((((s.setParent t 0).setRight t 0).setLeft t 0).setBit t MAXTUNBIT).setRoot t),
      0, false)
  else do
    let node ← descend fuel (s.key t) s.root s
    let check := if s.bit node < MAXTUNBIT then s.bit node else MAXTUNBIT
    let differ := differLoop (s.key t) (s.key node) check 0 0
    let differ := if check < differ then check else differ
    let node ← climb fuel differ node s
    if differ = MAXTUNBIT ∧ s.bit node = MAXTUNBIT then
      if !s.glue node then return (s, node, false)
      return ((s.setKey node (s.key t)).setGlue node false, node, true)
    let s := s.setBit t MAXTUNBIT
    if s.bit node = differ then
      let s := s.setParent t node
      if s.bit node < MAXTUNBIT ∧ keyBit (s.key t) (s.bit node) then
        return (s.setRight node t, 0, false)
      return (s.setLeft node t, 0, false)
    if differ = MAXTUNBIT then
      let s := (s.setLeft t node).setParent t (s.parent node)
      return (s.replace node t, 0, false)
    match glue with
    | none => return (s, t, false)
    | some g => return ((s.newGlue t g node differ).replace node g, 0, false)

def tunnelTreeRemove (t : ℕ) (s : TunnelTree) : Option TunnelTree :=
  if s.right t ≠ 0 ∧ s.left t ≠ 0 then some (s.setGlue t true)
  else if s.right t = 0 ∧ s.left t = 0 then
    let parent := s.parent t
    let s := (s.setGlue t true).free t
    if parent = 0 then some (s.setRoot 0)
    else
      let r := if s.right parent = t then (s.setRight parent 0, s.left parent)
        else (s.setLeft parent 0, s.right parent)
      let s := r.1
      let child := r.2
      if !s.glue parent then some s
      else
        let s := s.relink (s.parent parent) parent child
        if child = 0 then none
        else some ((s.setParent child (s.parent parent)).free parent)
  else
    let child := if s.right t ≠ 0 then s.right t else s.left t
    let parent := s.parent t
    let s := ((s.setParent child parent).setGlue t true).free t
    some (s.relink parent t child)

/-- A node from `malloc`, with the key of a peer. -/
def newTunnel (s : TunnelTree) (t : ℕ) (k : Addr6) : TunnelTree := (s.malloc t).setKey t k

/-- `add_tunnel` behind the lookup: a node with the key, freed again when it is not
    inserted. -/
def addTunnel (fuel t : ℕ) (k : Addr6) (glue : Option ℕ) (s : TunnelTree) :
    Option (TunnelTree × ℕ) :=
  (tunnelTreeInsert fuel t glue (s.newTunnel t k)).map fun r =>
    if r.2.1 ≠ 0 then
      if !r.2.2 then (r.1.free t, 0) else (r.1.free t, r.2.1)
    else (r.1, t)

theorem toLinks_relink (s : TunnelTree) (q x new : ℕ) :
    (s.relink q x new).toLinks = s.toLinks.relink false q x new := by
  unfold relink LinkedTree.Links.relink
  split
  · rfl
  · unfold right
    split <;> rfl

end TunnelTree

/-! ### The bits of a key -/

theorem keyByte_eq (k : Addr6) {i : ℕ} (hi : i < 16) :
    keyByte k i = (k.toNat >>> (8 * (15 - i))) % 2 ^ 8 := by
  have hget : (addr6Bytes k).getD i 0 = UInt8.ofNat (k.toNat >>> (8 * (15 - i))) := by
    simp [addr6Bytes, List.getD, hi]
  unfold keyByte
  rw [hget, UInt8.toNat_ofNat']

theorem testBit_keyByte (k : Addr6) {i j : ℕ} (hi : i < 16) (hj : j < 8) :
    (keyByte k i).testBit (7 - j) = bitAt k (8 * i + j) := by
  have hpos : 8 * (15 - i) + (7 - j) = 128 - 1 - (8 * i + j) := by omega
  have hlt : 8 * i + j < 128 := by omega
  rw [keyByte_eq k hi, Nat.testBit_mod_two_pow, Nat.testBit_shiftRight, hpos]
  unfold bitAt
  rw [BitVec.getMsbD_eq_getLsbD, BitVec.testBit_toNat]
  simp only [hlt, decide_true, Bool.true_and]
  rw [decide_eq_true (by omega), Bool.true_and]

theorem and_shift_ne_zero (r : ℕ) {j : ℕ} (hj : j < 8) :
    r &&& (0x80 >>> j) ≠ 0 ↔ r.testBit (7 - j) = true := by
  have hpow : ∀ j < 8, 0x80 >>> j = 2 ^ (7 - j) := by decide
  rw [hpow j hj, Nat.and_two_pow]
  cases r.testBit (7 - j) with
  | true => simp
  | false => simp

theorem keyBit_eq (k : Addr6) {b : ℕ} (hb : b < MAXTUNBIT) : keyBit k b = bitAt k b := by
  have hlt : b < 128 := hb
  have hshift : b >>> 3 = b / 8 := Nat.shiftRight_eq_div_pow b 3
  have hand : b &&& 7 = b % 8 := Nat.and_two_pow_sub_one_eq_mod b 3
  have hmod : b % 8 < 8 := Nat.mod_lt b (by omega)
  rw [Bool.eq_iff_iff]
  unfold keyBit
  rw [decide_eq_true_iff, hand, and_shift_ne_zero _ hmod, hshift,
    testBit_keyByte k (by omega) hmod, Nat.div_add_mod]

/-- The place where two keys differ, `MAXTUNBIT` when they are the same. -/
structure DiffersAt (a b : Addr6) (d : ℕ) : Prop where
  le : d ≤ MAXTUNBIT
  before : ∀ i < d, bitAt a i = bitAt b i
  ne : d < MAXTUNBIT → bitAt a d ≠ bitAt b d

theorem firstBit_spec {r : ℕ} (hr : r < 2 ^ 8) (hne : r ≠ 0) :
    firstBit r < 8 ∧ r.testBit (7 - firstBit r) = true ∧
      ∀ j < firstBit r, r.testBit (7 - j) = false := by
  have hcases : ∀ r' < 256, r' ≠ 0 → firstBit r' < 8 ∧ r'.testBit (7 - firstBit r') = true ∧
      ∀ j < firstBit r', r'.testBit (7 - j) = false := by
    decide +kernel
  exact hcases r hr hne

theorem keyByte_lt (k : Addr6) {i : ℕ} : keyByte k i < 2 ^ 8 := UInt8.toNat_lt _

/-- The bytes before `i` are the same, and the loop finds the place. -/
theorem differLoop_spec (a b : Addr6) {i : ℕ} (hi : i ≤ 16)
    (hbefore : ∀ j < 8 * i, bitAt a j = bitAt b j) :
    DiffersAt a b (differLoop a b MAXTUNBIT i (8 * i)) := by
  have hshift : i <<< 3 = 8 * i := by rw [Nat.shiftLeft_eq]; omega
  have hnext : (i + 1) <<< 3 = 8 * (i + 1) := by rw [Nat.shiftLeft_eq]; omega
  have hmax : MAXTUNBIT = 128 := rfl
  unfold differLoop
  rw [hshift, hnext]
  split
  · rename_i hlt
    have hi16 : i < 16 := by omega
    have hxor : ∀ j < 8, (keyByte a i ^^^ keyByte b i).testBit (7 - j) =
        (bitAt a (8 * i + j) ^^ bitAt b (8 * i + j)) := by
      intro j hj
      rw [Nat.testBit_xor, testBit_keyByte a hi16 hj, testBit_keyByte b hi16 hj]
    simp only
    split
    · rename_i hzero
      apply differLoop_spec a b hi16
      intro j hj
      by_cases hold : j < 8 * i
      · exact hbefore j hold
      · have hbit := hxor (j - 8 * i) (by omega)
        rw [hzero, Nat.zero_testBit, show 8 * i + (j - 8 * i) = j by omega] at hbit
        exact bne_eq_false_iff_eq.mp hbit.symm
    · rename_i hne
      have hr := Nat.xor_lt_two_pow (keyByte_lt a (i := i)) (keyByte_lt b (i := i))
      obtain ⟨hlt8, hset, hclear⟩ := firstBit_spec hr hne
      refine ⟨by omega, ?_, ?_⟩
      · intro j hj
        by_cases hold : j < 8 * i
        · exact hbefore j hold
        · have hbit := hxor (j - 8 * i) (by omega)
          rw [hclear _ (by omega), show 8 * i + (j - 8 * i) = j by omega] at hbit
          exact bne_eq_false_iff_eq.mp hbit.symm
      · intro _
        have hbit := hxor _ hlt8
        rw [hset] at hbit
        exact bne_iff_ne.mp hbit.symm
  · rename_i hge
    have hend : 8 * i = MAXTUNBIT := by omega
    exact ⟨hend.le, hbefore, fun hlt => absurd hlt (by omega)⟩
termination_by 16 - i

end WanStack.Aftr
