import Mathlib.Tactic

/-!
# Machine words

The platform is 32-bit (`ARCH := arm`): `uint32_t`, `size_t`, `paddr_t` and pointers are all
one word wide.
-/

namespace TrustyLkNxp

/-- A `uint32_t`, and a `size_t` on this platform. -/
abbrev Word := BitVec 32

/-- The word stored at the start of a little-endian byte sequence. -/
def le32 (bytes : List UInt8) : Word :=
  (bytes.take 4).foldr (fun b acc => acc <<< 8 ||| b.toBitVec.setWidth 32) 0

end TrustyLkNxp
