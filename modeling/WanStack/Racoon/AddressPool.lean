import Mathlib.Data.Int.Notation
import Mathlib.Tactic.SplitIfs
import WanStack.Lib.PartialRun
import WanStack.Lib.Slots

set_option autoImplicit false

/-!
# The address pool of mode config

`isakmp_cfg_getport`, `isakmp_cfg_putport`, `isakmp_cfg_rmstate` and
`isakmp_cfg_resize_pool` of `isakmp_cfg.c`, with the Xauth replies of
`isakmp_xauth.c` that release an address. Phase 1 handles are named by their
cookies, which are never used twice; allocations succeed, but `realloc` to no
bytes frees and returns `NULL`. A read of the pool that is freed, or behind its
end, is undefined.
-/
namespace WanStack.Racoon.AddressPool
open Lib.Slots PartialRun

abbrev Flags : Type := BitVec 32

def ISAKMP_CFG_PORT_ALLOCATED : Flags := 0x04#32

/-- `port_pool`; there are `pool_size` slots, also when they have been freed. -/
inductive PortPool where
  | null
  | live (used : List Bool)
  | freed (size : ℕ)
deriving DecidableEq, Repr

def PortPool.poolSize : PortPool → ℕ
  | .null => 0
  | .live used => used.length
  | .freed size => size

/-- The slots that can be read. -/
def PortPool.slots : PortPool → Option (List Bool)
  | .null => some []
  | .live used => some used
  | .freed _ => none

/-- A phase 1 handle, with `mode_cfg->flags` and `mode_cfg->port`. -/
structure Ph1handle where
  index : ℕ
  flags : Flags
  port : ℕ
deriving DecidableEq, Repr

def Ph1handle.Allocated (h : Ph1handle) : Prop := h.flags &&& ISAKMP_CFG_PORT_ALLOCATED ≠ 0
deriving Decidable

/-- The pool, the live handles, the cookies of the next handle, and the Xauth
    replies that wait for their time, each with the handle and the port. -/
structure State where
  pool : PortPool
  handles : List Ph1handle
  next : ℕ
  replies : List (ℕ × Option ℕ)
deriving DecidableEq, Repr

def State.cold : State where
  pool := .null
  handles := []
  next := 0
  replies := []

/-- `getph1byindex`. -/
def State.getph1byindex (s : State) (index : ℕ) : Option Ph1handle :=
  s.handles.find? fun h => h.index = index

def State.setHandle (s : State) (h : Ph1handle) : State :=
  { s with handles := s.handles.map fun g => if g.index = h.index then h else g }

/-- `isakmp_cfg_getport`: the pool, the handle and the port, or -1. -/
def isakmpCfgGetport (pool : PortPool) (iph1 : Ph1handle) :
    Option (PortPool × Ph1handle × Option ℕ) :=
  if iph1.Allocated then some (pool, iph1, some iph1.port) else
  match pool with
  | .null => some (pool, iph1, none)
  | .freed _ => none
  | .live used =>
    match used.findIdx? fun u => !u with
    | none => some (pool, iph1, none)
    | some i =>
      some (.live (used.set i true),
        { iph1 with
          flags := iph1.flags ||| ISAKMP_CFG_PORT_ALLOCATED
          port := i },
        some i)

/-- `isakmp_cfg_putport`. -/
def isakmpCfgPutport (pool : PortPool) (iph1 : Ph1handle) (index : ℕ) :
    Option (PortPool × Ph1handle) :=
  match pool with
  | .null => some (pool, iph1)
  | .freed _ => none
  | .live used =>
    match used[index]? with
    | none => none
    | some false => some (pool, iph1)
    | some true =>
      some (.live (used.set index false),
        { iph1 with flags := iph1.flags &&& ISAKMP_CFG_PORT_ALLOCATED })

/-- The address that `isakmp_cfg_rmstate` gives back. -/
def isakmpCfgRmstate (pool : PortPool) (iph1 : Ph1handle) : Option PortPool :=
  if iph1.Allocated then (isakmpCfgPutport pool iph1 iph1.port).map Prod.fst else some pool

/-- The search of `isakmp_cfg_resize_pool` from the slot in front of the last
    argument down to `size`: the new size. -/
def shrinkTo (used : List Bool) (size : ℕ) : ℕ → ℕ
  | 0 => size
  | i + 1 =>
    if i < size then size
    else if used[i]? = some true then i
    else shrinkTo used size i

/-- `isakmp_cfg_resize_pool`. With a negative size the allocation fails. -/
def isakmpCfgResizePool (pool : PortPool) (size : ℤ) : Option PortPool :=
  if size = pool.poolSize then some pool else
  match pool with
  | .freed _ => none
  | .null => if size < 0 then some .null else some (.live (List.replicate size.toNat false))
  | .live used =>
    if size < 0 then some (.live used) else
    let n := size.toNat
    let n := if n < used.length then shrinkTo used n used.length else n
    if n = 0 then some (.freed used.length)
    else if used.length < n then some (.live (used ++ List.replicate (n - used.length) false))
    else some (.live (used.take n))

/-- `remph1` and `delph1`. -/
def delph1 (s : State) (iph1 : Ph1handle) : Option State :=
  (isakmpCfgRmstate s.pool iph1).map fun pool =>
    { s with
      pool
      handles := s.handles.filter fun h => h.index ≠ iph1.index }

/-- `xauth_reply`, with `port` -1 or what `isakmp_cfg_getport` gave. -/
def xauthReply (s : State) (iph1 : Ph1handle) (port : Option ℕ) (res : Bool) : Option State :=
  if res then some s else
  match port with
  | none => delph1 s iph1
  | some port =>
    (isakmpCfgPutport s.pool iph1 port).bind fun r =>
      delph1 ({ s with pool := r.1 }.setHandle r.2) r.2

/-- What `isakmp_cfg_getport` leaves for a handle, and the port. -/
def getportOf (s : State) (iph1 : Ph1handle) : Option (State × Option ℕ) :=
  (isakmpCfgGetport s.pool iph1).map fun r =>
    ({ s with pool := r.1 }.setHandle r.2.1, r.2.2)

/-- What happens to the pool: a phase 1 begins; other code sets flags of a
    handle, never this one; an address is asked for, by `isakmp_cfg_net` or for
    a login; a reply to a login is due; a handle goes; the pool is resized. -/
inductive Event where
  | begin
  | mark (index : ℕ) (flags : Flags)
  | request (index : ℕ)
  | login (index : ℕ)
  | reply (k : ℕ) (res : Bool)
  | delete (index : ℕ)
  | resize (size : ℤ)
deriving DecidableEq, Repr

def State.onHandle (s : State) (index : ℕ) (f : Ph1handle → Option State) : Option State :=
  match s.getph1byindex index with
  | none => some s
  | some iph1 => f iph1

def step (s : State) : Event → Option State
  | .begin =>
    some
      { s with
        handles := { index := s.next, flags := 0, port := 0 } :: s.handles
        next := s.next + 1 }
  | .mark index flags =>
    s.onHandle index fun iph1 =>
      some (s.setHandle { iph1 with flags := iph1.flags ||| flags &&& ~~~ISAKMP_CFG_PORT_ALLOCATED })
  | .request index => s.onHandle index fun iph1 => (getportOf s iph1).map Prod.fst
  | .login index =>
    s.onHandle index fun iph1 =>
      (getportOf s iph1).map fun r => { r.1 with replies := r.1.replies ++ [(index, r.2)] }
  | .reply k res =>
    match s.replies[k]? with
    | none => some s
    | some r =>
      let s := { s with replies := s.replies.eraseIdx k }
      s.onHandle r.1 fun iph1 => xauthReply s iph1 r.2 res
  | .delete index => s.onHandle index (delph1 s)
  | .resize size => (isakmpCfgResizePool s.pool size).map fun pool => { s with pool }

/-- The indices that live handles hold. -/
def heldBy (handles : List Ph1handle) : List ℕ :=
  (handles.filter fun h => h.Allocated).map Ph1handle.port

/-- No index is held twice, each lies in the pool, and exactly the slots of the
    held ones are marked. -/
structure PoolOk (s : State) : Prop where
  unique : (heldBy s.handles).Nodup
  inside : ∀ i ∈ heldBy s.handles, i < s.pool.poolSize
  marked : ∃ used, s.pool.slots = some used ∧ ∀ i, used[i]? = some true ↔ i ∈ heldBy s.handles

/-- To release a handle's address clears its flag and leaves the others. -/
def ReleaseClears (s : State) : Prop :=
  ∀ iph1 ∈ s.handles, iph1.Allocated →
    ∃ r, isakmpCfgPutport s.pool iph1 iph1.port = some r ∧
      r.2.flags = iph1.flags &&& ~~~ISAKMP_CFG_PORT_ALLOCATED

/-- A resize that changes nothing, or makes the pool larger, or leaves slots and
    cuts only free ones. -/
def Fits (s : State) : Event → Prop
  | .resize size =>
    size < 0 ∨ s.pool.poolSize ≤ size ∨
      0 < size ∧ ∀ used, s.pool.slots = some used → ∀ i : ℕ, used[i]? = some true → i < size
  | _ => True

/-- A handle without an address asks for one, and a slot is free. -/
def Grants (s : State) : Event → Prop
  | .request index | .login index =>
    ∃ iph1, s.getph1byindex index = some iph1 ∧ ¬ iph1.Allocated ∧
      ∃ used, s.pool = .live used ∧ false ∈ used
  | _ => False

end WanStack.Racoon.AddressPool
