import StreamConfig.Command.Run

/-! # A directory of files

A directory that holds nothing but some files, as a source of files for commands. A path leads to
a file if, apart from steps that stay in place, it has the steps of the file's name and does not end
in a slash.
-/

namespace StreamConfig

/-- The contents of files by name, `none` for contents that are no text; of two files with one name
the later one counts. -/
abbrev Directory := List (String × Option String)

/-- The text that a path leads to. -/
def Directory.files (d : Directory) : Files := fun path =>
  let last := (Format.pieces path.toList).getLast?.getD []
  if path.toList.head? == some '/' || last.isEmpty || last == ['.'] then none
  else (d.reverse.find? fun f => Format.steps f.1 == Format.steps path).bind (·.2)

end StreamConfig
