import TrustyLkNxp.Ipc.Tipc

/-!
# The HWRNG service (`hwrng_srv.c`)

A client asks for random bytes with a request that carries their number.  Requests wait on
`hwrng_req_list`; each pass over the list sends every channel that is not blocked at most
one message of 4096 bytes.

The provider of the bytes (`hwrng_srv_provider.c`) is a parameter: a state, which holds the
buffer `rng_data`, and a function that refills the start of the buffer.
-/

namespace TrustyLkNxp.Hwrng

open Ipc

/-- The provider behind `hwrng_dev_get_rng_data`. -/
structure RngDev where
  /-- The state of the provider, `rng_data` included. -/
  σ : Type
  /-- `hwrng_dev_get_rng_data(rng_data, len)`: the bytes it leaves in the first `len` bytes
  of `rng_data`, or `none` when it does not return: its assertion fails, or the driver below it
  stops. -/
  get : σ → Word → Option (σ × List UInt8)
  /-- How many bytes the hardware has generated so far. -/
  drawn : σ → ℕ
  get_length : ∀ s len s' data, get s len = some (s', data) → data.length = len.toNat

/-- `MAX_HWRNG_MSG_SIZE`. -/
def maxHwrngMsgSize : Word := 4096

/-- `sizeof(struct hwrng_req)`: one 32-bit length. -/
def sizeofHwrngReq : ℕ := 4

/-- What the service does with its channels, as seen from outside. -/
inductive Act
  /-- A connection was accepted. -/
  | opened (h : Handle)
  /-- A request for `len` bytes was received. -/
  | request (h : Handle) (len : Word)
  /-- A reply was handed to `send_msg`, which returned `rc`. Its bytes were generated as
  bytes `lo` to `hi` of the hardware's output. -/
  | reply (h : Handle) (data : List UInt8) (rc : ℤ) (lo hi : ℕ)
deriving DecidableEq, Repr

/-- The part of the application the service works on. The log is the history of its actions,
the latest first. -/
structure World (D : RngDev) where
  sys : Sys
  /-- `hwrng_req_list`, from its head on. -/
  reqList : List Ptr
  dev : D.σ
  log : List Act

/-- The answers of the kernel to the calls the service makes while it handles one event. A
pass sends at most one message on a channel, so the results of `send_msg` are given by
channel. -/
structure Answers where
  accept : ℤ
  peer : Uuid
  calloc : Option Ptr
  setCookie : Rc
  inbound : Inbound
  send : Handle → ℤ

variable {D : RngDev}

namespace World

/-- Linking and unlinking a node writes to its neighbours, so every linked context has to be
live. -/
def touchList (w : World D) : Except Stop Unit :=
  match w.reqList.find? fun p => (w.sys.heap p).isNone with
  | some p => .error (.fault (.badAccess p))
  | none => .ok ()

/-- `list_add_tail(&hwrng_req_list, &ctx->node)`. -/
def listAddTail (w : World D) (p : Ptr) : Except Stop (World D) := do
  w.touchList
  return { w with reqList := w.reqList ++ [p] }

/-- `list_delete(&ctx->node)`, which also clears the node. -/
def listDelete (w : World D) (p : Ptr) : Except Stop (World D) := do
  w.touchList
  return { w with reqList := w.reqList.erase p }

/-- Write back a context. -/
def store (w : World D) (p : Ptr) (c : HwrngChanCtx) : World D :=
  { w with sys := w.sys.store p (.hwrng c) }

end World

/-- `hwrng_close_chan`. -/
def hwrngCloseChan (w : World D) (p : Ptr) : Except Stop (World D) := do
  let c ← w.sys.hwrngCtx p
  let sys ← w.sys.close c.chan
  let w := { w with sys := sys }
  let w ← if p ∈ w.reqList then w.listDelete p else pure w
  let sys ← w.sys.free p
  return { w with sys := sys }

/-- The body of the loop of `hwrng_handle_req_queue`, with whether it sets `need_more`. -/
def hwrngServe (U : Uapi) (send : Handle → ℤ) (w : World D) (p : Ptr) :
    Except Stop (World D × Bool) := do
  let c ← w.sys.hwrngCtx p
  if c.sendBlocked then
    return (w, false)
  let len := if c.reqSize > maxHwrngMsgSize then maxHwrngMsgSize else c.reqSize
  match D.get w.dev len with
  | none => throw .abort
  | some (dev, data) =>
    let rc := send c.chan
    let act := Act.reply c.chan data rc (D.drawn w.dev) (D.drawn dev)
    let w := { w with dev := dev, log := act :: w.log }
    if rc < 0 then
      if rc = U.errNotEnoughBuffer then
        -- the kernel owes the channel an event from now on
        let w := { w with sys := w.sys.setOwed c.chan true }
        return (w.store p { c with sendBlocked := true }, false)
      else
        let w ← hwrngCloseChan w p
        return (w, false)
    else
      let c := { c with reqSize := c.reqSize - len }
      let w := w.store p c
      if c.reqSize = 0 then
        let w ← w.listDelete p
        return (w, false)
      else
        return (w, true)

/-- The loop of `hwrng_handle_req_queue` over the contexts `ps` still ahead. The iteration
fetches the next node before the body runs, and the body unlinks at most the current one, so
the contexts visited are those linked when the loop was entered. -/
def hwrngPass (U : Uapi) (send : Handle → ℤ) :
    List Ptr → World D → Bool → Except Stop (World D × Bool)
  | [], w, needMore => pure (w, needMore)
  | p :: ps, w, needMore => do
    let (w, more) ← hwrngServe U send w p
    hwrngPass U send ps w (needMore || more)

/-- `hwrng_handle_req_queue`. -/
def hwrngHandleReqQueue (U : Uapi) (send : Handle → ℤ) (w : World D) :
    Except Stop (World D × Bool) :=
  hwrngPass U send w.reqList w false

/-- `hwrng_kick_req_queue`. -/
def hwrngKickReqQueue (U : Uapi) (send : Handle → ℤ) (w : World D) : Except Stop (World D) := do
  let (w, _) ← hwrngHandleReqQueue U send w
  return w

/-- `hwrng_chan_handle_msg`. -/
def hwrngChanHandleMsg (U : Uapi) (m : Inbound) (w : World D) (p : Ptr) :
    Except Stop (ℤ × World D) := do
  let c ← w.sys.hwrngCtx p
  let r := tipcRecvSingleBuf U m sizeofHwrngReq
  if r.rc ≠ sizeofHwrngReq then
    return (r.rc, w)
  let len := le32 r.data
  let w := { w with log := Act.request c.chan len :: w.log }
  if p ∈ w.reqList then
    -- a request is in progress: extend it
    return (0, w.store p { c with reqSize := c.reqSize + len })
  else
    let w ← (w.store p { c with reqSize := len }).listAddTail p
    return (0, w)

/-- What `hwrng_chan_handler` does before it kicks the queue. -/
def hwrngChanEvent (U : Uapi) (f : Flags) (a : Answers) (w : World D) (p : Ptr) :
    Except Stop (World D) := do
  if f.hup then
    hwrngCloseChan w p
  else
    let c ← w.sys.hwrngCtx p
    let w := if f.sendUnblocked then w.store p { c with sendBlocked := false } else w
    if f.msg then
      let (rc, w) ← hwrngChanHandleMsg U a.inbound w p
      if rc ≠ 0 then hwrngCloseChan w p else return w
    else
      return w

/-- `hwrng_chan_handler` for an event on `handle` whose cookie leads to the context `p`. -/
def hwrngChanHandler (U : Uapi) (handle : Handle) (f : Flags) (a : Answers) (w : World D)
    (p : Ptr) : Except Stop (World D) := do
  let c ← w.sys.hwrngCtx p
  if handle ≠ c.chan then
    throw (.fault .wrongChan)
  if chanErrors f then
    throw .abort
  let w ← hwrngChanEvent U f a w p
  hwrngKickReqQueue U a.send w

/-- `hwrng_port_handler`. -/
def hwrngPortHandler (f : Flags) (a : Answers) (w : World D) : Except Stop (World D) := do
  if portErrors f then
    throw .abort
  if f.ready then
    if a.accept < 0 then
      return w
    let chan : Handle := a.accept
    let w := { w with sys := w.sys.accept chan .hwrng a.peer, log := Act.opened chan :: w.log }
    match a.calloc with
    | none =>
      let sys ← w.sys.close chan
      return { w with sys := sys }
    | some p =>
      let w := w.store p { chan := chan, reqSize := 0, sendBlocked := false }
      let w := { w with sys := w.sys.setCookie chan (.ctx p) a.setCookie }
      if a.setCookie.1 ≠ 0 then
        let sys ← w.sys.free p
        let sys ← sys.close chan
        return { w with sys := sys }
      else
        return w
  else
    return w

/-- `hwrng_start_service`: `rc` is the result of `port_create` and `cookieRc` that of
`set_cookie`, which is not checked. -/
def hwrngStartService (s : Sys) (rc : ℤ) (cookieRc : Rc) : Sys :=
  if rc < 0 then s
  else
    let s := { s with objs := Function.update s.objs rc (some ⟨false, .hwrng, 0, none, false⟩) }
    s.setCookie rc (.port .hwrng) cookieRc

end TrustyLkNxp.Hwrng
