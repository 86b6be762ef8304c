/-
  Backend/SIMDSizes.lean --- the default vector sizes of Backend/SIMDSizes.h.

  Each branch of the preprocessor specialises `SIMDWidth` for some types; the
  primary template gives every other type one lane.
-/

set_option autoImplicit false

namespace VecCore

/-- The branches of `#if defined(__AVX512F__) ... #elif defined(__SSE__) ... #endif`. -/
inductive Target where
  | avx512
  | avx2
  | avx
  | sse
  | none
  deriving DecidableEq, Repr

/-- The arithmetic types of Types.h. -/
inductive LaneType where
  | double
  | float
  | uint16
  | uint32
  | uint64
  | int16
  | int32
  | int64
  deriving DecidableEq, Repr

/-- `SIMDWidth<T>()`. -/
def simdWidth : Target → LaneType → Nat
  | .avx512, .double => 8
  | .avx512, .float => 16
  | .avx512, .uint32 => 16
  | .avx512, .int32 => 16
  | .avx512, .uint16 => 32
  | .avx512, .int16 => 32
  | .avx2, .double => 4
  | .avx2, .float => 8
  | .avx2, .uint32 => 8
  | .avx2, .int32 => 8
  | .avx2, .uint16 => 16
  | .avx2, .int16 => 16
  | .avx, .double => 4
  | .avx, .float => 8
  | .avx, .uint32 => 4
  | .avx, .int32 => 4
  | .avx, .uint16 => 16
  | .avx, .int16 => 16
  | .sse, .double => 2
  | .sse, .float => 4
  | .sse, .uint32 => 4
  | .sse, .int32 => 4
  | .sse, .uint16 => 8
  | .sse, .int16 => 8
  | _, _ => 1

theorem simdWidth_pos (t : Target) (T : LaneType) : 0 < simdWidth t T := by
  cases t <;> cases T <;> exact Nat.succ_pos _

/-- A vector of 32-bit integers has no more lanes than one of floats, -/
theorem simdWidth_int32_le_float (t : Target) : simdWidth t .int32 ≤ simdWidth t .float := by
  cases t <;> decide

/-- and fewer on AVX without AVX2. -/
theorem simdWidth_int32_lt_float_iff (t : Target) :
    simdWidth t .int32 < simdWidth t .float ↔ t = .avx := by
  cases t <;> decide

end VecCore
