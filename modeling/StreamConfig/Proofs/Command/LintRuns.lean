import Mathlib.Data.List.Induction
import Mathlib.Data.String.Basic
import StreamConfig.Command.Run
import StreamConfig.Proofs.Json.Writing

/-! # Lint runs over many files

A lint run goes through its files and gathers lines of text, a report by path and a number of
errors. Whatever the files are, the three tell the same story:
* `Finding.line`, `Finding.report` — what is to be told of one finding, in text and in JSON
* `Files.findings` — the findings for one file, as if it were the only one
* `Files.textReport`, `Files.jsonReport`, `Files.errorCount` — what is to be told of a list of files
* `Tally.Tells` — a tally that tells just that; `Tally.Tells.add` adds one file, `exists_tells` any
  number of them
* `runArguments_lint` — so a whole run ends as its files require, in both styles, and what it writes
  in JSON reads back as the report
-/

namespace StreamConfig

/-! ## What is to be told -/

namespace Finding

variable (f : Finding)

/-- The word for the level. -/
def levelWord : String := if f.level = .error then "error" else "warning"

/-- A line of text. -/
def line (path : String) : String :=
  path ++ ":" ++ toString f.position.line ++ ":" ++ toString f.position.column ++ ": " ++
    f.levelWord ++ ": " ++ f.text ++ "\n"

/-- An object of four entries. -/
def report : Value :=
  .object [("line", .number (.int f.position.line)), ("column", .number (.int f.position.column)),
    ("level", .string f.levelWord), ("what", .string f.text)]

/-- Line and column are integers of 64 bits, as they are in every text that fits into memory. -/
def IsPlaced : Prop :=
  f.position.line ≤ 18446744073709551615 ∧ f.position.column ≤ 18446744073709551615

variable {f}

theorem name_level : f.level.name = f.levelWord := by
  unfold levelWord
  cases f.level <;> rfl

theorem inFile_eq (path : String) : f.inFile path ++ "\n" = f.line path := by
  rw [inFile, name_level, line]

theorem toValue_eq : f.toValue = f.report := by
  rw [toValue, name_level]
  rfl

theorem isPortable_report (h : f.IsPlaced) (room : Nat) : Json.IsPortable (room + 1) f.report := by
  have hint {n : Nat} (hn : n ≤ 18446744073709551615) :
      Json.IsPortable room (.number (.int n)) := by
    refine .int ?_ ?_
    · unfold Number.minSigned
      omega
    · unfold Number.maxUnsigned
      omega
  have hkeys : ["line", "column", "level", "what"].Nodup := by decide
  refine .object hkeys ?_
  simp only [List.forall_mem_cons, List.not_mem_nil, false_imp_iff, implies_true, and_true]
  exact ⟨hint h.1, hint h.2, .string _, .string _⟩

end Finding

namespace Files

variable (files : Files)

/-- The findings for one file among the built-in components; none if it does not load. -/
def findings (path : String) : List Finding :=
  match files.load path with
  | .ok (source, v) => ((lintDocument source v).run Builtin.registry).1
  | .error _ => []

def Loads (path : String) : Prop := ∃ doc, files.load path = .ok doc

/-- One line for every finding, file by file. -/
def textReport (paths : List String) : String :=
  String.join (paths.flatMap fun path => (files.findings path).map fun f => f.line path)

def reportEntry (path : String) : String × Value :=
  (path, .array ((files.findings path).map Finding.report))

/-- Every path once, in the order in which they come first, each with its findings. -/
def jsonReport (paths : List String) : Entries := paths.eraseDups.map files.reportEntry

/-- The errors in all files; a file that comes twice counts twice. -/
def errorCount (paths : List String) : Nat :=
  (paths.flatMap files.findings).countP fun f => f.level = .error

variable {files}

theorem findings_of_load {path source : String} {v : Value}
    (h : files.load path = .ok (source, v)) : files.findings path = builtinFindings source v := by
  rw [findings, h]
  rfl

theorem textReport_snoc (paths : List String) (path : String) :
    files.textReport (paths ++ [path]) = files.textReport paths ++
      String.join ((files.findings path).map fun f => f.line path) := by
  simp [textReport]

theorem errorCount_snoc (paths : List String) (path : String) :
    files.errorCount (paths ++ [path]) =
      files.errorCount paths + (files.findings path).countP fun f => f.level = .error := by
  simp [errorCount]

theorem errorCount_eq_zero_iff {paths : List String} :
    files.errorCount paths = 0 ↔ ∀ path ∈ paths, ∀ f ∈ files.findings path, f.level ≠ .error := by
  rw [errorCount, List.countP_eq_zero]
  simp only [List.mem_flatMap, forall_exists_index, and_imp, decide_eq_true_eq]
  exact ⟨fun h path hpath f hf => h f path hpath hf, fun h f path hpath hf => h path hpath f hf⟩

theorem keys_jsonReport (paths : List String) :
    Entries.keys (files.jsonReport paths) = paths.eraseDups := by
  unfold jsonReport Entries.keys
  rw [List.map_map]
  exact List.map_id _

/-- A path that has been there changes nothing, since its findings are the same again. -/
theorem jsonReport_snoc (paths : List String) (path : String) :
    files.jsonReport (paths ++ [path]) =
      Entries.insert (files.jsonReport paths) path (files.reportEntry path).2 := by
  have hcontains : Entries.contains (files.jsonReport paths) path = true ↔ path ∈ paths := by
    rw [Entries.contains_iff, keys_jsonReport, List.mem_eraseDups]
  unfold Entries.insert
  split
  next hmem =>
    rw [hcontains] at hmem
    have hsame : (paths ++ [path]).eraseDups = paths.eraseDups := by
      rw [List.eraseDups_append]
      simp [List.removeAll, hmem]
    -- its entry is replaced by itself
    have hkept : ∀ e ∈ files.jsonReport paths,
        (if e.1 == path then (e.1, (files.reportEntry path).2) else e) = e := by
      intro e he
      obtain ⟨p, -, rfl⟩ := List.mem_map.1 he
      by_cases hp : p = path <;> simp [reportEntry, hp]
    unfold Entries.modify
    rw [List.map_congr_left hkept, List.map_id', jsonReport, hsame, jsonReport]
  next hnew =>
    have hmem : path ∉ paths := fun hmem => hnew (hcontains.2 hmem)
    have hadded : (paths ++ [path]).eraseDups = paths.eraseDups ++ [path] := by
      rw [List.eraseDups_append]
      simp [List.removeAll, hmem, List.eraseDups_cons]
    rw [jsonReport, hadded, List.map_append]
    rfl

theorem nodup_keys_jsonReport (paths : List String) :
    (Entries.keys (files.jsonReport paths)).Nodup := by
  induction paths using List.reverseRecOn with
  | nil => exact .nil
  | append_singleton paths path ih =>
    rw [jsonReport_snoc]
    exact Entries.nodup_keys_insert ih

/-- No path twice, and positions of 64 bits: the report can be written and read. -/
theorem isPortable_jsonReport {paths : List String}
    (h : ∀ path ∈ paths, ∀ f ∈ files.findings path, f.IsPlaced) :
    Json.IsPortable Json.maxNesting (.object (files.jsonReport paths)) := by
  refine .object (nodup_keys_jsonReport paths) fun e he => ?_
  obtain ⟨path, hpath, rfl⟩ := List.mem_map.1 he
  refine .array fun v hv => ?_
  obtain ⟨f, hf, rfl⟩ := List.mem_map.1 hv
  exact Finding.isPortable_report (h path (List.mem_eraseDups.1 hpath) f hf) _

end Files

/-! ## The tally -/

/-- A tally tells of a list of files. -/
structure Tally.Tells (files : Files) (paths : List String) (t : Tally) : Prop where
  lines : t.lines = files.textReport paths
  report : t.report = files.jsonReport paths
  errors : t.errors = files.errorCount paths

theorem foldl_lines (path lines : String) (fs : List Finding) :
    fs.foldl (fun text f => text ++ f.inFile path ++ "\n") lines =
      lines ++ String.join (fs.map fun f => f.line path) := by
  induction fs generalizing lines with
  | nil => simp
  | cons f fs ih =>
    rw [List.foldl_cons, ih, List.map_cons, String.join_cons, ← Finding.inFile_eq]
    simp only [String.append_assoc]

namespace Tally.Tells

variable {files : Files} {paths : List String} {t : Tally}

theorem start : Tells files [] Tally.start := ⟨rfl, rfl, rfl⟩

theorem add (h : t.Tells files paths) (path : String) :
    (t.add path (files.findings path)).Tells files (paths ++ [path]) := by
  refine ⟨?_, ?_, ?_⟩
  · rw [Files.textReport_snoc, ← h.lines]
    exact foldl_lines path t.lines _
  · have hvalues : (files.findings path).map Finding.toValue =
        (files.findings path).map Finding.report :=
      List.map_congr_left fun f _ => Finding.toValue_eq
    rw [Files.jsonReport_snoc, ← h.report, Files.reportEntry, ← hvalues]
    rfl
  · rw [Files.errorCount_snoc, ← h.errors, List.countP_eq_length_filter]
    rfl

/-- By induction on the files that load: the run goes on behind them with a tally that tells of
them. -/
theorem exists_tells (h : t.Tells files paths) {loaded : List String}
    (hloads : ∀ path ∈ loaded, files.Loads path) (rest : List String) :
    ∃ t', t'.Tells files (paths ++ loaded) ∧
      lintFiles files t (loaded ++ rest) = lintFiles files t' rest := by
  induction loaded generalizing paths t with
  | nil => exact ⟨t, (List.append_nil paths).symm ▸ h, rfl⟩
  | cons path loaded ih =>
    obtain ⟨⟨⟨source, v⟩, hload⟩, hloads⟩ := List.forall_mem_cons.1 hloads
    obtain ⟨t', htells, hrun⟩ := ih (h.add path) hloads
    have hstep : lintFiles files t (path :: (loaded ++ rest)) =
        lintFiles files (t.add path (files.findings path)) (loaded ++ rest) := by
      rw [lintFiles, hload, Files.findings_of_load hload]
    refine ⟨t', ?_, hstep.trans hrun⟩
    rwa [List.append_assoc] at htells

end Tally.Tells

/-! ## Runs -/

/-- What a run writes that comes to the end of its files. -/
def Files.output (files : Files) (style : ReportStyle) (paths : List String) : String :=
  match style with
  | .text => files.textReport paths
  | .json => Json.pretty (.object (files.jsonReport paths)) ++ "\n"

/-- What a run writes that breaks off behind the given files. -/
def Files.brokenOutput (files : Files) (style : ReportStyle) (paths : List String) : String :=
  match style with
  | .text => files.textReport paths
  | .json => ""

theorem lintOutcome_loaded {files : Files} {paths : List String} (style : ReportStyle)
    (h : ∀ path ∈ paths, files.Loads path) :
    (Command.lint paths style).run files =
      if files.errorCount paths = 0 then .success (files.output style paths)
      else .failure (files.output style paths)
        (toString (files.errorCount paths) ++ " lint error(s) found") := by
  obtain ⟨t, htells, hrun⟩ := Tally.Tells.start.exists_tells h []
  rw [List.append_nil, lintFiles] at hrun
  rw [List.nil_append] at htells
  simp only [Command.run, hrun, lintOutcome, htells.errors, htells.lines, htells.report]
  cases style <;> rfl

theorem lintOutcome_broken {files : Files} {before : List String} {path : String} {e : LoadError}
    (after : List String) (style : ReportStyle) (h : ∀ p ∈ before, files.Loads p)
    (he : files.load path = .error e) :
    (Command.lint (before ++ path :: after) style).run files =
      .failure (files.brokenOutput style before) e.message := by
  obtain ⟨t, htells, hrun⟩ := Tally.Tells.start.exists_tells h (path :: after)
  rw [lintFiles, he] at hrun
  rw [List.nil_append] at htells
  simp only [Command.run, hrun, lintOutcome, htells.lines]
  cases style <;> rfl

/-- A command line that asks for linting. If all files load, their findings are written and the run
ends well just if there is no error among them; otherwise it tells how many there are. What is
written in JSON reads back as the report. If a file does not load, the run ends there with the
reason. -/
theorem runArguments_lint {files : Files} {words paths : List String} {style : ReportStyle}
    {filter : String} (hwords : Command.ofArguments? words = some (.lint paths style, filter))
    (hfilter : LogFilter.check filter = .ok ()) :
    let out := runArguments files words
    ((∀ path ∈ paths, files.Loads path) →
      out.output = files.output style paths ∧
        (style = .json → (∀ path ∈ paths, ∀ f ∈ files.findings path, f.IsPlaced) →
          Json.read out.output = some (.object (files.jsonReport paths))) ∧
        (out.exit = 0 ↔ ∀ path ∈ paths, ∀ f ∈ files.findings path, f.level ≠ .error) ∧
        (out.exit = 0 → out.error = "") ∧
        (out.exit ≠ 0 → out.exit = 1 ∧
          out.error = "Error: " ++ (toString (files.errorCount paths) ++ " lint error(s) found"))) ∧
      ∀ before path after e, paths = before ++ path :: after → (∀ p ∈ before, files.Loads p) →
        files.load path = .error e →
        out.exit = 1 ∧ out.error = "Error: " ++ e.message ∧
          out.output = files.brokenOutput style before := by
  intro out
  have hout : out = (Command.lint paths style).run files := by
    show runArguments files words = _
    rw [runArguments, hwords]
    dsimp only
    rw [hfilter]
  refine ⟨fun hloads => ?_, ?_⟩
  · have houtput : out.output = files.output style paths := by
      rw [hout, lintOutcome_loaded style hloads]
      split <;> rfl
    refine ⟨houtput, ?_, ?_⟩
    · rintro rfl hplaced
      rw [houtput]
      exact Json.read_pretty (Files.isPortable_jsonReport hplaced)
    · rw [hout, lintOutcome_loaded style hloads, ← Files.errorCount_eq_zero_iff]
      split
      next hzero => exact ⟨iff_of_true rfl hzero, fun _ => rfl, fun hexit => (hexit rfl).elim⟩
      next hsome => exact ⟨iff_of_false Nat.one_ne_zero hsome, nofun, fun _ => ⟨rfl, rfl⟩⟩
  · rintro before path after e rfl hloads he
    rw [hout, lintOutcome_broken after style hloads he]
    exact ⟨rfl, rfl, rfl⟩

/-- A list where an object should be, twice, with an empty document between, in both styles; and the
same with a blank file behind it. -/
theorem runArguments_lint_twice :
    let files : Files := fun path =>
      if path = "list" then some "[]" else if path = "object" then some "\x7b\x7d" else some " "
    let twice := runArguments files ["lint", "list", "object", "list"]
    let twiceInJson := runArguments files ["lint", "--format", "json", "list", "object", "list"]
    let broken := runArguments files ["lint", "--format", "json", "list", "blank"]
    (twice.exit = 1 ∧ twice.error = "Error: 2 lint error(s) found" ∧
      twice.output = "list:1:1: error: expected the document root to be an object\n" ++
        "list:1:1: error: expected the document root to be an object\n") ∧
      (twiceInJson.exit = 1 ∧ twiceInJson.error = "Error: 2 lint error(s) found" ∧
        twiceInJson.output = "\x7b\n" ++
          "  \"list\": [\n" ++
          "    \x7b\n" ++
          "      \"line\": 1,\n" ++
          "      \"column\": 1,\n" ++
          "      \"level\": \"error\",\n" ++
          "      \"what\": \"expected the document root to be an object\"\n" ++
          "    \x7d\n" ++
          "  ],\n" ++
          "  \"object\": []\n" ++
          "\x7d\n" ∧
        Json.read twiceInJson.output = some (.object
          [("list", .array [.object [("line", .number (.int 1)), ("column", .number (.int 1)),
            ("level", .string "error"),
            ("what", .string "expected the document root to be an object")]]),
          ("object", .array [])])) ∧
      broken.exit = 1 ∧ broken.error = "Error: config file blank is empty" ∧
        broken.output = "" := by
  intro files twice twiceInJson broken
  have hlist : files.Loads "list" := ⟨("[]", .array []), rfl⟩
  have hobject : files.Loads "object" := ⟨("\x7b\x7d", .object []), rfl⟩
  have hcount : files.errorCount ["list", "object", "list"] = 2 := by decide
  have hfails : ¬ ∀ path ∈ ["list", "object", "list"], ∀ f ∈ files.findings path,
      f.level ≠ .error := by
    rw [← Files.errorCount_eq_zero_iff, hcount]
    decide
  refine ⟨?_, ?_, ?_⟩
  · have hwords : Command.ofArguments? ["lint", "list", "object", "list"] =
        some (.lint ["list", "object", "list"] .text, "warn") := by decide
    obtain ⟨hall, -⟩ := @runArguments_lint files _ _ _ _ hwords (by decide)
    obtain ⟨houtput, -, hexit, -, herrors⟩ := hall (by simp [hlist, hobject])
    obtain ⟨hone, herror⟩ := herrors (hexit.not.2 hfails)
    rw [hcount] at herror
    exact ⟨hone, herror.trans (by decide), houtput.trans (by decide)⟩
  · have hwords : Command.ofArguments? ["lint", "--format", "json", "list", "object", "list"] =
        some (.lint ["list", "object", "list"] .json, "warn") := by decide +kernel
    obtain ⟨hall, -⟩ := @runArguments_lint files _ _ _ _ hwords (by decide)
    obtain ⟨houtput, hread, hexit, -, herrors⟩ := hall (by simp [hlist, hobject])
    obtain ⟨hone, herror⟩ := herrors (hexit.not.2 hfails)
    rw [hcount] at herror
    have hplaced : ∀ path ∈ ["list", "object", "list"], ∀ f ∈ files.findings path, f.IsPlaced := by
      unfold Finding.IsPlaced
      decide
    exact ⟨hone, herror.trans (by decide), houtput.trans (by decide +kernel),
      (hread rfl hplaced).trans rfl⟩
  · have hwords : Command.ofArguments? ["lint", "--format", "json", "list", "blank"] =
        some (.lint ["list", "blank"] .json, "warn") := by decide +kernel
    obtain ⟨-, hbroken⟩ := @runArguments_lint files _ _ _ _ hwords (by decide)
    have hblank : files.load "blank" = .error (.empty "blank") := rfl
    obtain ⟨hone, herror, houtput⟩ := hbroken ["list"] "blank" [] _ rfl (by simp [hlist]) hblank
    exact ⟨hone, herror.trans (by decide), houtput⟩

end StreamConfig
