import LinePainter.Program

def main (arguments : List String) : IO UInt32 := do
  let outcome := LinePainter.Program.outcome arguments
  IO.print outcome.output
  IO.eprint outcome.complaint
  return outcome.code.toUInt32
