import TrustyLkNxp.Basic

/-!
# The kernel and the allocator, as the application sees them

A handle names an open port or channel.  The kernel keeps for each the cookie last set on it
and, for a channel, the identity of the client it was accepted from.  Channel contexts live
on the heap of the application.  Closing a handle that is not open, freeing a context that
is not live and touching one are recorded as faults; `abort` and failed assertions end the
application too, but deliberately.
-/

namespace TrustyLkNxp.Ipc

/-- `handle_t`. -/
abbrev Handle := ℤ

/-- The address of a heap block. -/
abbrev Ptr := ℕ

/-- `uuid_t`: sixteen bytes. -/
abbrev Uuid := BitVec 128

/-- Memory and handle errors. -/
inductive Fault
  | doubleFree (p : Ptr)
  /-- An access through a pointer to no live context of the expected kind. -/
  | badAccess (p : Ptr)
  | doubleClose (h : Handle)
  /-- The assertion `ev->handle == ctx->chan` of a channel handler. -/
  | wrongChan
  | outOfBounds
deriving DecidableEq, Repr

/-- Why the application stopped. -/
inductive Stop
  /-- `abort()` or a failed assertion other than those counted as faults. -/
  | abort
  /-- `caam_decap_blob` does not return: the driver aborts, or waits for its job forever. -/
  | driver
  | fault (f : Fault)
deriving DecidableEq, Repr

/-- The two services, each with a port of its own. -/
inductive Service
  | hwrng
  | hwkey
deriving DecidableEq, Repr

/-- `struct hwrng_chan_ctx`; whether `node` is linked is recorded in `hwrng_req_list`. -/
structure HwrngChanCtx where
  chan : Handle
  reqSize : Word
  sendBlocked : Bool
deriving DecidableEq, Repr

/-- `struct hwkey_chan_ctx`. -/
structure HwkeyChanCtx where
  chan : Handle
  uuid : Uuid
deriving DecidableEq, Repr

/-- A live channel context. Its constructor is the `proc` of its event handler, whose `priv`
points back at the context. -/
inductive Ctx
  | hwrng (c : HwrngChanCtx)
  | hwkey (c : HwkeyChanCtx)
deriving DecidableEq, Repr

/-- The field `chan` of a context. -/
def Ctx.chan : Ctx → Handle
  | .hwrng c => c.chan
  | .hwkey c => c.chan

/-- The service whose handler a context is for. -/
def Ctx.srv : Ctx → Service
  | .hwrng _ => .hwrng
  | .hwkey _ => .hwkey

/-- A cookie: the static handler of a port, or the handler embedded in a context. -/
inductive Cookie
  | port (s : Service)
  | ctx (p : Ptr)
deriving DecidableEq, Repr

/-- What the kernel knows about an open handle. -/
structure Obj where
  /-- A channel; otherwise a port. -/
  isChan : Bool
  /-- The service of the port, or of the port the channel was accepted on. -/
  srv : Service
  /-- The identity of the client, for a channel. -/
  peer : Uuid
  cookie : Option Cookie
  /-- A send has failed with `ERR_NOT_ENOUGH_BUFFER` and no `SEND_UNBLOCKED` event has been
  delivered since. -/
  owed : Bool
deriving DecidableEq, Repr

/-- The open handles and the live contexts. -/
structure Sys where
  objs : Handle → Option Obj
  heap : Ptr → Option Ctx

/-- `NO_ERROR` or a negative error code. -/
abbrev Rc := {r : ℤ // r ≤ 0}

namespace Sys

/-- `close`. -/
def close (s : Sys) (h : Handle) : Except Stop Sys :=
  match s.objs h with
  | none => .error (.fault (.doubleClose h))
  | some _ => .ok { s with objs := Function.update s.objs h none }

/-- `free`. -/
def free (s : Sys) (p : Ptr) : Except Stop Sys :=
  match s.heap p with
  | none => .error (.fault (.doubleFree p))
  | some _ => .ok { s with heap := Function.update s.heap p none }

/-- Write a context, freshly allocated or live. -/
def store (s : Sys) (p : Ptr) (c : Ctx) : Sys :=
  { s with heap := Function.update s.heap p (some c) }

/-- Follow a pointer to a HWRNG context. -/
def hwrngCtx (s : Sys) (p : Ptr) : Except Stop HwrngChanCtx :=
  match s.heap p with
  | some (.hwrng c) => .ok c
  | _ => .error (.fault (.badAccess p))

/-- Follow a pointer to a HWKEY context. -/
def hwkeyCtx (s : Sys) (p : Ptr) : Except Stop HwkeyChanCtx :=
  match s.heap p with
  | some (.hwkey c) => .ok c
  | _ => .error (.fault (.badAccess p))

/-- A successful `accept` on the port of a service opens a channel without a cookie. -/
def accept (s : Sys) (h : Handle) (srv : Service) (peer : Uuid) : Sys :=
  { s with objs := Function.update s.objs h (some ⟨true, srv, peer, none, false⟩) }

/-- `set_cookie`: on success the handle carries the cookie. -/
def setCookie (s : Sys) (h : Handle) (c : Cookie) (rc : Rc) : Sys :=
  if rc.1 = 0 then
    { s with objs := Function.update s.objs h ((s.objs h).map fun o => { o with cookie := some c }) }
  else s

/-- The kernel notes whether it owes the channel a `SEND_UNBLOCKED` event. -/
def setOwed (s : Sys) (h : Handle) (b : Bool) : Sys :=
  { s with objs := Function.update s.objs h ((s.objs h).map fun o => { o with owed := b }) }

end Sys

/-! ## Events -/

/-- The bits of an event mask. -/
structure Flags where
  ready : Bool := false
  error : Bool := false
  hup : Bool := false
  msg : Bool := false
  sendUnblocked : Bool := false
deriving DecidableEq, Repr

/-- What the kernel has to say about the message at the head of a channel's queue: the
result of `get_msg`, the bytes of the message, and the error of `read_msg`, if any. -/
structure Inbound where
  getMsg : Rc
  bytes : List UInt8
  readMsg : Rc
deriving DecidableEq

/-- The error codes of `uapi/err.h` that the code compares with or returns. -/
structure Uapi where
  errNotEnoughBuffer : ℤ
  errBadLen : ℤ
  errNotEnoughBuffer_neg : errNotEnoughBuffer < 0
  errBadLen_neg : errBadLen < 0

end TrustyLkNxp.Ipc
