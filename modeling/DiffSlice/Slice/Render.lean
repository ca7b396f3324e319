import DiffSlice.Slice.Basic
import DiffSlice.Slice.BlankRuns
import DiffSlice.Slice.Decorator

/-!
# Shown slices

The lines of a slice are annotated, decorators that lost their declaration are dropped, and blank lines are
collapsed. Lines are joined by newlines whatever ended them in the source.
-/

namespace DiffSlice

open DiffSlice.Text
open DiffSlice.Patch (LineSet)

def SlicedLine.annotated (style : LineStyle) (edited : LineSet) (line : SlicedLine) : String :=
  match style with
  | .lineNumbers => toString line.number ++ " " ++ line.text
  | .editMarkers => (if edited.contains line.number then "+" else " ") ++ line.text
  | .plain => line.text

/-- The slice as it is shown. The edited lines matter for edit marks only. -/
def Slice.render (s : Slice) (style : LineStyle) (edited : LineSet) : String :=
  collapseBlankRuns style (joinLines (Decorator.dropStray (s.lines.map (·.annotated style edited))))

end DiffSlice
