import RowStore.Demo

/-!
# The command line

The program runs the demonstration, prints its text and ends with its status.
-/

def main : IO UInt32 := do
  let report := RowStore.Demo.report
  IO.print report.text
  return report.status.toUInt32
