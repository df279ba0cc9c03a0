import CodeIndex.Text.Utf8

/-!
# Runs of programs

What can come of running another program.
-/

namespace CodeIndex.Program

inductive Outcome where
  /-- No such program. -/
  | notFound
  /-- The program is there and cannot be started. -/
  | notStarted (reason : String)
  | timedOut
  | exited (code : Int) (output errors : Bytes)
  deriving Repr, DecidableEq

end CodeIndex.Program
