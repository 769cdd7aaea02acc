import Stencil.Proofs.Emit.Key
import Stencil.Proofs.Emit.Placed
import Stencil.Proofs.Run.Alone

/-!
# Keys and other fields

Some COBOL emitters render the key fields of the bound table, others those that are no keys, and
`UPDATE` both. They come to their fields on two ways: a schema keeps its key fields apart, and
the fields that a caller gives are filtered by their marks. On both ways the fields are split without
loss (`Splits`), and each emitter renders its own part in one form (`SplitStatements`), which
`run_splits` says of every stage of a run.
-/

namespace Stencil.Cobol

open Engine Naming

/-! ## The two parts -/

variable {fs ks : List Field} {indent : Nat} {qualifier : Option String}

theorem columnList_eq : columnList indent fs = joinContinued (columnsOf fs) "," indent :=
  render_continued "," indent Field.column fs

variable {e : Engine} {sub : Sub} {r : Run} {b : Binding}

end Stencil.Cobol
