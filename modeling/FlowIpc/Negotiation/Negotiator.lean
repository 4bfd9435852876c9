import FlowIpc.Found.ErrorCode
import Mathlib.Algebra.Group.Int.Defs
import Mathlib.Order.Bounds.Basic
import Mathlib.Order.Interval.Set.Defs

/-!
# The protocol negotiator

`Protocol_negotiator` settles which version of a protocol one side of a comm pathway speaks. It is
built on the range `[L, H]` the side can speak; it gives out `H` for sending, once; and from the
opposing maximum it computes the version to speak, once.

* **The computation** (`computeNegotiatedProtoVer`) has four branches: the opposing maximum is not a
  version; ours is at most theirs; theirs is lower but still in our range; theirs is too old. The
  third branch stores *our* maximum.
* **What each call leaves behind** is read off in one lemma per method (`negotiatedVer`,
  `emittedCode`), so that later files never unfold the methods.

Source: `protocol_negotiator.hpp`, `protocol_negotiator.cpp`.
-/

namespace FlowIpc.Negotiation

/-! ## The object -/

/-- `S_VER_UNSUPPORTED`. -/
def verUnsupported : Int := 0

/-- `S_VER_UNKNOWN`. -/
def verUnknown : Int := -1

/-- The versions one side can speak: what the constructor of a negotiator asserts of its arguments,
which are positive values of `int16_t`.
Source: `protocol_negotiator.cpp` `Protocol_negotiator()` -/
structure VersionRange where
  /-- `local_min_proto_ver` -/
  min : Int
  /-- `local_max_proto_ver` -/
  max : Int
  /-- The lowest version is positive. -/
  min_pos : 0 < min
  /-- The range is not empty. -/
  min_le_max : min ≤ max
  /-- A version is an `int16_t`. -/
  max_lt : max < 2 ^ 15

/-- Version 1 alone. -/
def VersionRange.one : VersionRange := ⟨1, 1, by decide, by decide, by decide⟩

/-- Every version of a range is positive, so never one of the two special values. -/
theorem VersionRange.max_pos (r : VersionRange) : 0 < r.max :=
  lt_of_lt_of_le r.min_pos r.min_le_max

/-- A `Protocol_negotiator`.
Source: `protocol_negotiator.hpp` `Protocol_negotiator` -/
structure ProtocolNegotiator where
  /-- `m_local_min_proto_ver` and `m_local_max_proto_ver`. -/
  range : VersionRange
  /-- `m_local_max_proto_ver_sent` -/
  localMaxProtoVerSent : Bool
  /-- `m_negotiated_proto_ver` -/
  negotiatedProtoVer : Int

namespace ProtocolNegotiator

/-- The constructor.
Source: `protocol_negotiator.cpp` `Protocol_negotiator()` -/
def ctor (range : VersionRange) : ProtocolNegotiator where
  range := range
  localMaxProtoVerSent := false
  negotiatedProtoVer := verUnknown

/-- `reset()`: back to the as-if-just-constructed state, which a moved-from object is left in.
Source: `protocol_negotiator.cpp` `reset` -/
def reset (n : ProtocolNegotiator) : ProtocolNegotiator :=
  { n with localMaxProtoVerSent := false, negotiatedProtoVer := verUnknown }

/-- A negotiator that is reset, or moved from, is as just constructed on its range. -/
@[simp] theorem reset_eq_ctor (n : ProtocolNegotiator) : n.reset = ctor n.range := rfl

/-- `compute_negotiated_proto_ver()` with a non-null `err_code`; `errCode` is the value it points to.
Source: `protocol_negotiator.cpp` `compute_negotiated_proto_ver` -/
def computeNegotiatedProtoVer (n : ProtocolNegotiator) (opposingMaxProtoVer : Int)
    (errCode : ErrorCode) : Bool × ErrorCode × ProtocolNegotiator :=
  if n.negotiatedProtoVer ≠ verUnknown then
    (false, errCode, n)
  else if opposingMaxProtoVer ≤ 0 then
    (true, Code.protocolNegotiationOpposingVerInvalid.toErrorCode,
      { n with negotiatedProtoVer := verUnsupported })
  else if n.range.max ≤ opposingMaxProtoVer then
    (true, errCode, { n with negotiatedProtoVer := n.range.max })
  else if opposingMaxProtoVer ≥ n.range.min then
    -- The log line of this branch announces `opposing_max_proto_ver`; the assignment is this one.
    (true, errCode, { n with negotiatedProtoVer := n.range.max })
  else
    (true, Code.protocolNegotiationOpposingVerTooOld.toErrorCode,
      { n with negotiatedProtoVer := verUnsupported })

/-- `local_max_proto_ver_for_sending()`.
Source: `protocol_negotiator.cpp` `local_max_proto_ver_for_sending` -/
def localMaxProtoVerForSending (n : ProtocolNegotiator) : Int × ProtocolNegotiator :=
  if n.localMaxProtoVerSent then (verUnknown, n)
  else (n.range.max, { n with localMaxProtoVerSent := true })

/-! ## What the methods leave behind -/

/-- The version the code computes for the range `r` and the opposing maximum `opp`. -/
def negotiatedVer (r : VersionRange) (opp : Int) : Int :=
  if 0 < opp ∧ (r.max ≤ opp ∨ r.min ≤ opp) then r.max else verUnsupported

/-- The code emitted by the computation for the range `r` and the opposing maximum `opp`. -/
def emittedCode (r : VersionRange) (opp : Int) : ErrorCode :=
  if opp ≤ 0 then Code.protocolNegotiationOpposingVerInvalid.toErrorCode
  else if r.max ≤ opp ∨ r.min ≤ opp then none
  else Code.protocolNegotiationOpposingVerTooOld.toErrorCode

variable (n : ProtocolNegotiator) (opp : Int) (err : ErrorCode)

/-- The first computation settles the version and says so. -/
theorem compute_of_unknown (h : n.negotiatedProtoVer = verUnknown) :
    n.computeNegotiatedProtoVer opp none
      = (true, emittedCode n.range opp,
          { n with negotiatedProtoVer := negotiatedVer n.range opp }) := by
  unfold computeNegotiatedProtoVer emittedCode negotiatedVer
  rw [if_neg (not_not.mpr h)]
  by_cases h0 : opp ≤ 0
  · simp [h0, not_lt.mpr h0]
  · by_cases h1 : n.range.max ≤ opp
    · simp [h0, h1, not_le.mp h0]
    · by_cases h2 : n.range.min ≤ opp
      · simp [h0, h1, h2, not_le.mp h0]
      · simp [h0, h1, h2]

/-- Any later computation does nothing and says so. -/
theorem compute_of_known (h : n.negotiatedProtoVer ≠ verUnknown) :
    n.computeNegotiatedProtoVer opp err = (false, err, n) := by
  unfold computeNegotiatedProtoVer
  rw [if_pos h]

/-- The computation never settles on `S_VER_UNKNOWN`. -/
theorem negotiatedVer_ne_unknown (r : VersionRange) : negotiatedVer r opp ≠ verUnknown := by
  have := r.min_pos
  have := r.min_le_max
  unfold negotiatedVer verUnknown verUnsupported
  split <;> omega

end ProtocolNegotiator

end FlowIpc.Negotiation
