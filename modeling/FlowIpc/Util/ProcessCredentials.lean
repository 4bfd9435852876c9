import FlowIpc.Found.ErrorCode

/-!
# Process credentials

`process_invoked_as()` reads from `/proc` how a process was invoked: the first of its arguments, which is led
up to by nothing and ended by a zero, or by the end of what there is. Of the file it makes no assumptions,
and fails only if it cannot be opened, or cannot be read although it is not over
(`processInvokedAs_eq`).

Source: `process_credentials.hpp`, `process_credentials.cpp`.
-/

namespace FlowIpc.Util

/-- Source: `process_credentials.hpp` `Process_credentials` -/
structure ProcessCredentials where
  /-- `process_id()` -/
  processId : Nat
  /-- `user_id()` -/
  userId : Nat
  /-- `group_id()` -/
  groupId : Nat
  deriving DecidableEq, Repr

/-- Each value is zero.
Source: `process_credentials.cpp` `Process_credentials()` -/
def ProcessCredentials.zero : ProcessCredentials := ⟨0, 0, 0⟩

/-- A file `/proc/<pid>/cmdline`; an error is the `errno` there is then. -/
structure CmdLineFile where
  /-- Why it cannot be opened, if it cannot. -/
  openFails : Option Nat
  /-- What can be read of it. -/
  chars : List UInt8
  /-- Why it can be read no further, if that is not for its end. -/
  readFails : Option Nat

/-- The loop: what is read, and whether the stream is `good()` after it.
Source: `process_credentials.cpp` `process_invoked_as` -/
def readLoop (result : List UInt8) : List UInt8 → List UInt8 × Bool
  | [] => (result, false)
  | ch :: chars => if ch = 0 then (result, true) else readLoop (result ++ [ch]) chars

/-- `process_invoked_as()`, given where to put the error, which holds `err`.
Source: `process_credentials.cpp` `process_invoked_as` -/
def ProcessCredentials.processInvokedAsBody (c : ProcessCredentials) (proc : Nat → CmdLineFile)
    (err : ErrorCode) : List UInt8 × ErrorCode × Unit :=
  let cmdLineFile := proc c.processId
  match cmdLineFile.openFails with
  | some errno => ([], some (.system errno), ())
  | none =>
    let (result, good) := readLoop [] cmdLineFile.chars
    match good, cmdLineFile.readFails with
    | false, some errno => ([], some (.system errno), ())
    | _, _ => (result, err, ())

/-- Source: `process_credentials.cpp` `process_invoked_as` -/
def ProcessCredentials.processInvokedAs (c : ProcessCredentials) (proc : Nat → CmdLineFile)
    (ptr : Option ErrorCode) : Emit (List UInt8) :=
  (execAndThrowOnError ptr (c.processInvokedAsBody proc)).1

/-- What is read is what comes before a zero. By induction on what there is to read. -/
theorem readLoop_eq (chars : List UInt8) : ∀ result : List UInt8,
    readLoop result chars = (result ++ chars.takeWhile (· ≠ 0), decide (0 ∈ chars)) := by
  induction chars with
  | nil => intro result; simp [readLoop]
  | cons ch chars ih =>
    intro result
    by_cases hzero : ch = 0
    · simp [readLoop, hzero]
    · have hne : ¬ 0 = ch := fun h => hzero h.symm
      simp [readLoop, hzero, hne, ih]

/-- What goes wrong as the file is opened or read. -/
def CmdLineFile.failure (f : CmdLineFile) : Option Nat :=
  match f.openFails with
  | some errno => some errno
  | none => if 0 ∈ f.chars then none else f.readFails

/-- **`process_invoked_as()`** fails as the file does; where it does not fail it leaves `*err_code` alone. -/
theorem ProcessCredentials.processInvokedAsBody_eq (c : ProcessCredentials) (proc : Nat → CmdLineFile)
    (err : ErrorCode) : c.processInvokedAsBody proc err =
      match (proc c.processId).failure with
      | some errno => ([], some (.system errno), ())
      | none => ((proc c.processId).chars.takeWhile (· ≠ 0), err, ()) := by
  unfold processInvokedAsBody CmdLineFile.failure
  generalize proc c.processId = f
  obtain ⟨openFails, chars, readFails⟩ := f
  rcases openFails with _ | errno
  · dsimp only
    rw [readLoop_eq, List.nil_append]
    by_cases hzero : 0 ∈ chars
    · rw [if_pos hzero, decide_eq_true hzero]
    · rw [if_neg hzero, decide_eq_false hzero]
      rcases readFails with _ | errno
      · rfl
      · rfl
  · rfl

/-- With a place for the error. -/
theorem ProcessCredentials.processInvokedAs_some (c : ProcessCredentials) (proc : Nat → CmdLineFile)
    (err : ErrorCode) : c.processInvokedAs proc (some err) =
      match (proc c.processId).failure with
      | some errno => .ret [] (some (.system errno))
      | none => .ret ((proc c.processId).chars.takeWhile (· ≠ 0)) err := by
  unfold processInvokedAs execAndThrowOnError
  dsimp only
  rw [processInvokedAsBody_eq]
  rcases (proc c.processId).failure with _ | errno
  · rfl
  · rfl

end FlowIpc.Util
