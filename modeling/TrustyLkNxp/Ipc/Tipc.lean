import TrustyLkNxp.Ipc.Kernel

/-!
# The message helpers of `main.c`

Receiving a message takes it with `get_msg`, checks its length, copies it with `read_msg`
and retires it with `put_msg`.
-/

namespace TrustyLkNxp.Ipc

/-- The outcome of receiving: the result code, the bytes copied, in the order of the
segments, and how often the message was retired. -/
structure Recv where
  rc : ℤ
  data : List UInt8
  puts : ℕ
deriving DecidableEq

/-- `read_msg` into segments of `cap` bytes altogether: a negative error, or the number of
bytes copied, which is the smaller of the length of the message and `cap`. -/
def readMsg (m : Inbound) (cap : ℕ) : ℤ × List UInt8 :=
  if m.readMsg.1 < 0 then (m.readMsg.1, []) else ((m.bytes.take cap).length, m.bytes.take cap)

/-- `tipc_recv_single_buf`. -/
def tipcRecvSingleBuf (U : Uapi) (m : Inbound) (len : ℕ) : Recv :=
  if m.getMsg.1 ≠ 0 then ⟨m.getMsg.1, [], 0⟩
  else
    let r := if m.bytes.length ≠ len then (U.errBadLen, []) else readMsg m len
    ⟨r.1, r.2, 1⟩

/-- `tipc_recv_two_segments`. -/
def tipcRecvTwoSegments (U : Uapi) (m : Inbound) (hdrLen payloadLen : ℕ) : Recv :=
  if m.getMsg.1 ≠ 0 then ⟨m.getMsg.1, [], 0⟩
  else
    let r := if m.bytes.length < hdrLen then (U.errBadLen, []) else readMsg m (hdrLen + payloadLen)
    ⟨r.1, r.2, 1⟩

/-- `tipc_handle_port_errors`: whether it aborts. -/
def portErrors (f : Flags) : Bool := f.error || f.hup || f.msg || f.sendUnblocked

/-- `tipc_handle_chan_errors`: whether it aborts. -/
def chanErrors (f : Flags) : Bool := f.error || f.ready

/-- The code of a reception of two segments is negative or counts the bytes copied, at least
a header and at most a header and a full payload. -/
lemma tipcRecvTwoSegments_cases (U : Uapi) (m : Inbound) (hdrLen payloadLen : ℕ) :
    (m.getMsg.1 ≠ 0 ∧ tipcRecvTwoSegments U m hdrLen payloadLen = ⟨m.getMsg.1, [], 0⟩) ∨
    (m.getMsg.1 = 0 ∧ ∃ rc, rc < 0 ∧
      tipcRecvTwoSegments U m hdrLen payloadLen = ⟨rc, [], 1⟩ ∧
      (m.bytes.length < hdrLen ∨ m.readMsg.1 < 0)) ∨
    (m.getMsg.1 = 0 ∧ m.readMsg.1 = 0 ∧ hdrLen ≤ m.bytes.length ∧
      tipcRecvTwoSegments U m hdrLen payloadLen =
        ⟨(m.bytes.take (hdrLen + payloadLen)).length, m.bytes.take (hdrLen + payloadLen), 1⟩) := by
  have hread := m.readMsg.2
  by_cases hget : m.getMsg.1 = 0
  · right
    by_cases hlen : m.bytes.length < hdrLen
    · exact Or.inl ⟨hget, U.errBadLen, U.errBadLen_neg, by simp [tipcRecvTwoSegments, hget, hlen],
        Or.inl hlen⟩
    · by_cases hneg : m.readMsg.1 < 0
      · exact Or.inl ⟨hget, m.readMsg.1, hneg,
          by simp [tipcRecvTwoSegments, readMsg, hget, hlen, hneg], Or.inr hneg⟩
      · exact Or.inr ⟨hget, by omega, by omega,
          by simp [tipcRecvTwoSegments, readMsg, hget, hlen, hneg]⟩
  · exact Or.inl ⟨hget, by simp [tipcRecvTwoSegments, hget]⟩

/-- A message is retired once, when there is one. -/
lemma tipcRecvTwoSegments_puts (U : Uapi) (m : Inbound) (hdrLen payloadLen : ℕ) :
    (tipcRecvTwoSegments U m hdrLen payloadLen).puts = if m.getMsg.1 = 0 then 1 else 0 := by
  rw [tipcRecvTwoSegments]
  by_cases hget : m.getMsg.1 = 0
  · rw [if_neg (not_not.mpr hget), if_pos hget]
  · rw [if_pos hget, if_neg hget]

end TrustyLkNxp.Ipc
