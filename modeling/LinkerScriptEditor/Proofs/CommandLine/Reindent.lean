import LinkerScriptEditor.CommandLine
import LinkerScriptEditor.Proofs.App.Versions
import LinkerScriptEditor.Proofs.Indent.Noninterference
import LinkerScriptEditor.Proofs.Manager.Selecting

/-!
# Re-indenting from the command line

The command line makes one pass over the lines of a script and prints them. The editor makes a pass
over a range of rows, cuts the range out of it, and splices it into the document unless nothing
would change. Without a selection both come to the same text, and to the same fault where a margin
cannot be written. What is printed holds no carriage returns and is settled, so it is read back line
by line and stays as it is.
-/

namespace LinkerScriptEditor

open Traced

namespace Command

variable {w : Workspace}

/-- Without a selection the buffer gets the lines of a pass over all rows, or the command is refused
with the pass. -/
theorem lines_indentRegion (unselected : w.buffer.selection = none)
    (ne : w.buffer.document.lines ≠ []) :
    match Indent.reindentBounded w.settings.style w.settings.unit w.buffer.document.lines 0
      none with
    | .ok result => (effect indentRegion w).2.buffer.document.lines = result
    | .error fault => effect indentRegion w = (.error fault, w) := by
  have before : (Document.atLeastOne w.buffer.document.lines).length =
      w.buffer.document.lines.length := by
    rw [Document.atLeastOne_of_ne_nil ne]
  rw [effect_indentRegion_all unselected ne, Indent.reindentBounded_all ne]
  rcases (Indent.robust_length _).reindentBounded w.settings.style w.settings.unit before 0 none
    with ⟨result, pass, length⟩ | ⟨fault, pass, -⟩
  · have some : result ≠ [] := by
      rintro rfl
      exact ne (List.eq_nil_of_length_eq_zero length.symm)
    have fits : 0 + result.length ≤ w.buffer.document.lines.length := by omega
    obtain ⟨delta, b, run, lines, -⟩ :=
      Buffer.effect_reindentRows_of_fits "indent_region" some fits
    have overwritten : effect (Buffer.reindentRows 0 result "indent_region") w.buffer = _ := run
    rw [pass]
    dsimp only
    rw [overwritten]
    dsimp only
    rw [Workspace.buffer_emitted, lines, Nat.zero_add, length, List.take_zero, List.drop_length,
      List.nil_append, List.append_nil]
  · rw [pass]

end Command

namespace Manager

/-- The region is indented, either by the name of its action or by a key that stands for it. -/
inductive IndentsRegion (m : Manager) : Except Fault KeyResult → Manager → Prop
  | named {outcome : Except Fault Outcome} {after : Manager}
      (run : effect (runAction "indent.region") m = (outcome, after)) :
      IndentsRegion m (outcome.map Outcome.toResult) after
  | pressed {key : KeyPress} {a : Action Handler} {outcome : Except Fault KeyResult}
      {after : Manager} (runs : m.runs? key = some a) (region : a.id = "indent.region")
      (run : effect (press key) m = (outcome, after)) : IndentsRegion m outcome after

theorem IndentsRegion.invokes {m after : Manager} {outcome : Except Fault KeyResult}
    (indents : m.IndentsRegion outcome after) : m.Invokes "indent.region" outcome after := by
  cases indents with
  | named run => exact .named run
  | pressed runs region run => exact .pressed runs region run

/-- In a new manager no keys are pending, so it does not matter how the command is called. -/
theorem IndentsRegion.eq_effect {b : Buffer} {s : Settings} {outcome : Except Fault KeyResult}
    {after : Manager} (indents : (ofBuffer b s).IndentsRegion outcome after) :
    (outcome, after.workspace) = effect Command.indentRegion (started b s).workspace := by
  obtain ⟨start, same, rfl, rfl⟩ :=
    indents.invokes.exists_effect (installed_ofBuffer b s) LinkerScriptMode.mem_indentRegion
  rw [ofBuffer_eq] at same
  rcases same with rfl | rfl
  · rfl
  · have idle : ((started b s).pend []).workspace = (started b s).workspace := rfl
    rw [idle]

end Manager

namespace CommandLine

open Manager

variable {settings : Settings} {text printed : List Char}

theorem reindented_eq (settings : Settings) (text : List Char) :
    Run.reindented settings text = joinLines <$> Indent.reindentBounded settings.style
      settings.unit (Document.ofText text).lines 0 none := rfl

/-- What is printed of a text without carriage returns has none either, and it is settled: read
again, it is printed as it is. -/
theorem reindented_again (free : '\r' ∉ text) (ran : Run.reindented settings text = .ok printed) :
    '\r' ∉ printed ∧ Run.reindented settings printed = .ok printed := by
  have separated := separated_ofText text
  have before : Separated (Document.atLeastOne (Document.ofText text).lines) ∧
      Returnless (Document.atLeastOne (Document.ofText text).lines) := by
    rw [Document.atLeastOne_of_ne_nil separated.ne_nil]
    exact ⟨separated, (Buffer.returnless_ofText none none free).lines⟩
  have robust := Indent.robust_separated.and (Indent.robust_not_mem (c := '\r') (by decide))
  rw [reindented_eq] at ran
  rcases robust.reindentBounded settings.style settings.unit before 0 none with
    ⟨result, pass, separated, returnless⟩ | ⟨fault, pass, -⟩
  · rw [pass] at ran
    cases ran
    refine ⟨Returnless.joinLines returnless, ?_⟩
    rw [reindented_eq, Returnless.lines_ofText returnless separated,
      Indent.reindentBounded_again pass]
    rfl
  · rw [pass] at ran
    cases ran

/-- Only a margin is refused, and only if memory does not hold a unit for each row but the first. -/
theorem limit_of_reindented_eq_error {fault : Fault}
    (ran : Run.reindented settings text = .error fault) :
    fault.IsLimit ∧ (0 ≤ settings.unit →
      Margin.capacity < (Document.ofText text).lastRow * settings.unit) := by
  have separated := separated_ofText text
  rw [reindented_eq] at ran
  cases pass : Indent.reindentBounded settings.style settings.unit (Document.ofText text).lines 0
    none with
  | ok result =>
      rw [pass] at ran
      cases ran
  | error fault =>
      rw [pass] at ran
      cases ran
      constructor
      · rcases (Indent.robust_length _).reindentBounded settings.style settings.unit rfl 0 none with
          ⟨result, other, -⟩ | ⟨fault, other, limit⟩
        · cases pass.symm.trans other
        · cases pass.symm.trans other
          exact limit
      · intro nonneg
        rw [← Indent.reindentBounded_all separated.ne_nil] at pass
        rcases Indent.reindentBounded_rows separated nonneg settings.style with
          ⟨result, other, -⟩ | ⟨fault, other, -, wide⟩
        · cases pass.symm.trans other
        · exact wide

/-- The text of a new buffer becomes what the command line prints. -/
theorem text_indentRegion (name file : Option String) (text : List Char) (settings : Settings) :
    let w := (started (.ofText name file text) settings).workspace
    match Run.reindented settings text with
    | .ok printed => (effect Command.indentRegion w).2.buffer.text = printed
    | .error fault => effect Command.indentRegion w = (.error fault, w) := by
  intro w
  have lines := Command.lines_indentRegion (w := w) rfl (separated_ofText text).ne_nil
  have pass : Indent.reindentBounded w.settings.style w.settings.unit w.buffer.document.lines 0
      none = Indent.reindentBounded settings.style settings.unit (Document.ofText text).lines 0
      none := rfl
  rw [pass] at lines
  rw [reindented_eq]
  cases came : Indent.reindentBounded settings.style settings.unit (Document.ofText text).lines 0
    none with
  | ok result =>
      rw [came] at lines
      exact congrArg joinLines lines
  | error fault =>
      rw [came] at lines
      exact lines

/-- The arguments ask for the script at a path to be re-indented, and the settings become those to
re-indent it under. -/
def Asks (args : List String) (before : Settings) (path : FilePath) (settings : Settings) : Prop :=
  ∃ arguments, Arguments.parse args = .ok arguments ∧ arguments.reindent = true ∧
    arguments.path.map FilePath.ofText = some path ∧
    Run.configure arguments before = (settings, none)

theorem Asks.run_eq {args : List String} {before : Settings} {path : FilePath}
    (asks : Asks args before path settings) {read : Run.Reader} (found : read path = .ok text) :
    run read before args = match Run.reindented settings text with
      | .ok printed => ⟨String.ofList printed, "", .code 0, none, settings⟩
      | .error fault => ⟨"", "", .fault fault, none, settings⟩ := by
  obtain ⟨arguments, parsed, reindent, named, configured⟩ := asks
  rw [run, parsed]
  dsimp only
  rw [Run.ofArguments, configured]
  dsimp only
  rw [named, if_pos reindent]
  dsimp only
  rw [Run.printReindented, found]
  rfl

/-- What a script is printed as is the text that its buffer has once the region is indented under
the same settings, and a file that holds what is printed is printed as it is. Where memory does not
hold a margin, printing and indenting end with one fault: nothing is printed, and the buffer keeps
the text that was loaded. -/
theorem run_eq_region {args : List String} {before : Settings} {path : FilePath}
    {files : FileTree} (asks : Asks args before path settings)
    (readable : files.readText path = .ok text) (widgets : Bool) :
    ∃ b, (App.start (some path) widgets files settings).loadBuffer = .ok b ∧
      ((∃ printed,
        run files.readText before args = ⟨String.ofList printed, "", .code 0, none, settings⟩ ∧
        (∀ outcome after, (Manager.ofBuffer b settings).IndentsRegion outcome after →
          after.workspace.buffer.text = printed) ∧
        ∀ again : FileTree, again.readBytes path = .ok (Utf8.encode printed) →
          run again.readText before args =
            ⟨String.ofList printed, "", .code 0, none, settings⟩) ∨
      ∃ fault, fault.IsLimit ∧
        (0 ≤ settings.unit → Margin.capacity < b.document.lastRow * settings.unit) ∧
        run files.readText before args = ⟨"", "", .fault fault, none, settings⟩ ∧
        ∀ outcome after, (Manager.ofBuffer b settings).IndentsRegion outcome after →
          outcome = .error fault ∧ after.workspace.buffer = b) := by
  refine ⟨_, App.loadBuffer_eq rfl readable, ?_⟩
  have free := FileTree.not_mem_of_readText readable
  have region := text_indentRegion (some path.name) (some path.toText) text settings
  cases ran : Run.reindented settings text with
  | ok printed =>
      obtain ⟨clean, settled⟩ := reindented_again free ran
      rw [ran] at region
      refine .inl ⟨printed, ?_, fun outcome after indents => ?_, fun again holds => ?_⟩
      · rw [asks.run_eq readable, ran]
      · have left := congrArg Prod.snd indents.eq_effect
        rw [← region, ← left]
      · have read : again.readText path = .ok printed :=
          FileTree.readText_eq_ok_iff.mpr ⟨_, printed, holds, by
            rw [FileTree.decode, Utf8.decode_encode], FileTree.unifyLineEnds_of_not_mem clean⟩
        rw [asks.run_eq read, settled]
  | error fault =>
      obtain ⟨limit, narrow⟩ := limit_of_reindented_eq_error ran
      rw [ran] at region
      refine .inr ⟨fault, limit, narrow, ?_, fun outcome after indents => ?_⟩
      · rw [asks.run_eq readable, ran]
      · obtain ⟨came, left⟩ := Prod.mk.inj (indents.eq_effect.trans region)
        rw [left]
        exact ⟨came, rfl⟩

/-- A line below a brace is printed with its margin, and has it in the editor too. -/
theorem run_eq_region_below_brace :
    let args := ["--reindent", "a.ld"]
    let settings := Settings.ofEnvironment []
    let path := FilePath.ofText "a.ld"
    let files : FileTree := [(["a.ld"], .file (Utf8.encode "\x7b\r\nx".toList))]
    Asks args settings path settings ∧ files.readText path = .ok "\x7b\nx".toList ∧
      (run files.readText settings args).stdout = "\x7b\n    x" ∧
      ∃ b, (App.start (some path) true files settings).loadBuffer = .ok b ∧
        ∀ outcome after, (Manager.ofBuffer b settings).IndentsRegion outcome after →
          after.workspace.buffer.text = "\x7b\n    x".toList := by
  intro args settings path files
  have asks : Asks args settings path settings := ⟨_, rfl, rfl, rfl, rfl⟩
  have readable : files.readText path = .ok "\x7b\nx".toList := by rfl
  have shown : run files.readText settings args =
      ⟨"\x7b\n    x", "", .code 0, none, settings⟩ := by
    rw [asks.run_eq readable]
    rfl
  obtain ⟨b, loaded, ⟨printed, ran, region, -⟩ | ⟨fault, -, -, ran, -⟩⟩ :=
    run_eq_region asks readable true
  · have text := congrArg Run.stdout (ran.symm.trans shown)
    have same : printed = "\x7b\n    x".toList :=
      String.toList_ofList.symm.trans (congrArg String.toList text)
    exact ⟨asks, readable, congrArg Run.stdout shown, b, loaded, same ▸ region⟩
  · cases congrArg Run.ending (ran.symm.trans shown)

/-- With a unit that no margin can be written for nothing is printed, while the buffer holds the
text. -/
theorem stdout_ne_text_of_wide_unit :
    let unit : Int := 100000000000000000000
    let args := ["--reindent", "--indent-unit", "100000000000000000000", "a.ld"]
    let settings : Settings := { Settings.ofEnvironment [] with unitOverride := some unit }
    let path := FilePath.ofText "a.ld"
    let files : FileTree := [(["a.ld"], .file (Utf8.encode "\x7b\nx".toList))]
    let b := Buffer.ofText (some "a.ld") (some "a.ld") "\x7b\nx".toList
    Asks args (.ofEnvironment []) path settings ∧
      (App.start (some path) true files settings).loadBuffer = .ok b ∧
      ∃ outcome after, (Manager.ofBuffer b settings).IndentsRegion outcome after ∧
        (run files.readText (.ofEnvironment []) args).stdout.toList ≠
          after.workspace.buffer.text := by
  intro unit args settings path files b
  have asks : Asks args (.ofEnvironment []) path settings := ⟨_, rfl, rfl, rfl, rfl⟩
  have readable : files.readText path = .ok "\x7b\nx".toList := by rfl
  have wide : Run.reindented settings "\x7b\nx".toList = .error .marginTooWide := by rfl
  have refused : effect Command.indentRegion (started b settings).workspace =
      (.error .marginTooWide, (started b settings).workspace) := by
    have region := text_indentRegion (some "a.ld") (some "a.ld") "\x7b\nx".toList settings
    rw [wide] at region
    exact region
  rcases called : effect (runAction "indent.region") (.ofBuffer b settings) with ⟨outcome, after⟩
  have indents : (Manager.ofBuffer b settings).IndentsRegion _ after := .named called
  have left : after.workspace = (started b settings).workspace :=
    (Prod.mk.inj (indents.eq_effect.trans refused)).2
  have text : after.workspace.buffer.text = "\x7b\nx".toList := by
    rw [left]
    rfl
  refine ⟨asks, rfl, _, after, indents, ?_⟩
  rw [text, asks.run_eq readable, wide]
  decide

end CommandLine

end LinkerScriptEditor
