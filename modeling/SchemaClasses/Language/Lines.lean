/-!
# Lines and blocks

Source text is put together from blocks of lines.  A block ends without a line break; blocks that
are empty leave no trace.
-/

namespace SchemaClasses.Lines

/-- Lines one below the other. -/
def stack (lines : List String) : String := "\n".intercalate lines

/-- Blocks with an empty line between them. -/
def spaced (blocks : List String) : String := "\n\n".intercalate blocks

/-- The blocks that are not empty, with an empty line between them. -/
def spacedNonempty (blocks : List String) : String := spaced (blocks.filter (· ≠ ""))

/-- A text with something before and after it; an empty text stays empty. -/
def enclosed (before text after : String) : String :=
  if text = "" then "" else before ++ text ++ after

@[simp] theorem enclosed_empty (before after : String) : enclosed before "" after = "" := rfl

end SchemaClasses.Lines
