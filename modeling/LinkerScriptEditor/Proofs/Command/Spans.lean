import LinkerScriptEditor.Mode
import LinkerScriptEditor.Proofs.Buffer.Operation
import LinkerScriptEditor.Proofs.Log.Orderly

/-!
# Spans of edits and commands

Edits, changes of the settings and the commands of the linker script mode open a span for each
stretch of work, one inside the other, and leave them in order, whatever they are refused for.
-/

namespace LinkerScriptEditor

open Traced

theorem Traced.spansNest_event {σ : Type} (level : LogLevel) (name : String)
    (data : OrderedMap String Datum) : SpansNest (event level name data : Traced σ Unit) :=
  ⟨fun _ => .plain (LogEntry.isPlain_event _ _ _ _) .done⟩

namespace Settings

theorem spansNest_readUnit : SpansNest readUnit := by
  refine ⟨fun s => Nests.of_plain ?_⟩
  intro e mem
  obtain ⟨text, -, rfl⟩ := List.mem_map.mp mem
  exact LogEntry.isPlain_event _ _ _ _

theorem spansNest_readStyle : SpansNest readStyle := by
  refine ⟨fun s => Nests.of_plain ?_⟩
  intro e mem
  obtain ⟨text, -, rfl⟩ := List.mem_map.mp mem
  exact LogEntry.isPlain_event _ _ _ _

end Settings

namespace Buffer

theorem spansNest_edit (label : String) (change : Buffer → Buffer) :
    SpansNest (edit label change) := by
  refine .silently (fun _ => rfl) fun b => ?_
  refine (spansNest_of_silent fun _ => rfl).within.bind fun _ => ?_
  exact spansNest_of_silent fun _ => rfl

theorem spansNest_replaceRange (start stop : Position) (text : List Char) (label : String) :
    SpansNest (replaceRange start stop text label) := by
  refine .silently (fun _ => rfl) fun b => ?_
  refine .silently (fun _ => rfl) fun (first, second) => ?_
  exact spansNest_edit label _

theorem spansNest_insertText (text : List Char) (at? : Option Position) :
    SpansNest (insertText text at?) :=
  .silently (fun _ => rfl) fun _ => spansNest_replaceRange _ _ text _

theorem spansNest_reindentRows (start : Int) (new : List Line) (label : String) :
    SpansNest (reindentRows start new label) := by
  refine .silently (fun _ => rfl) fun b => ?_
  refine .silently (fun _ => rfl) fun first => ?_
  refine .silently (fun _ => rfl) fun last => ?_
  split
  · exact spansNest_of_silent fun _ => rfl
  · exact spansNest_edit label _

theorem spansNest_setIndentation (row width : Int) : SpansNest (setIndentation row width) := by
  refine .silently (fun _ => rfl) fun b => ?_
  refine .silently (fun _ => rfl) fun r => ?_
  refine .silently (fun _ => rfl) fun margin => ?_
  exact spansNest_reindentRows row _ _

theorem Operation.spansNest_request (op : Operation) : SpansNest op.request := by
  cases op with
  | replaceRange start stop text label => exact (spansNest_replaceRange ..).discarded
  | insertText text at? => exact (spansNest_insertText ..).discarded
  | deleteRange start stop => exact (spansNest_replaceRange ..).discarded
  | setIndentation row width => exact (spansNest_setIndentation ..).discarded
  | reindentRows start new label => exact (spansNest_reindentRows ..).discarded
  | _ => exact spansNest_of_silent fun _ => rfl

end Buffer

namespace Command

open Workspace

theorem spansNest_deleteBackward : SpansNest deleteBackward := by
  refine .silently (fun _ => rfl) fun w => ?_
  dsimp only
  split
  · exact (Buffer.spansNest_replaceRange ..).zoom.map
  · split
    · refine .silently (fun _ => rfl) fun above => ?_
      exact (Buffer.spansNest_replaceRange ..).zoom.map
    · exact spansNest_of_silent fun _ => rfl

theorem spansNest_travel (status : String) (step : Buffer → Option Delta × Buffer) :
    SpansNest (travel status step) := by
  refine .silently (fun _ => rfl) fun w => ?_
  split
  · exact spansNest_of_silent fun _ => rfl
  · exact spansNest_of_silent fun _ => rfl

theorem spansNest_moveCursor (direction : Direction) : SpansNest (moveCursor direction) := by
  refine .silently (fun _ => rfl) fun w => ?_
  refine .silently (fun _ => rfl) fun p => ?_
  exact spansNest_of_silent fun _ => rfl

theorem spansNest_indentRow (row : Int) : SpansNest (indentRow row) := by
  refine Settings.spansNest_readUnit.zoom.bind fun unit => ?_
  refine Settings.spansNest_readStyle.zoom.bind fun style => ?_
  refine .silently (fun _ => rfl) fun w => ?_
  refine .silently (fun _ => rfl) fun decision => ?_
  refine (Buffer.spansNest_setIndentation ..).zoom.bind fun _ => ?_
  exact spansNest_of_silent fun _ => rfl

theorem spansNest_indentLine : SpansNest indentLine := by
  refine .silently (fun _ => rfl) fun w => ?_
  refine (SpansNest.span ?_).bind fun column => spansNest_of_silent fun _ => rfl
  refine (Orderly.inside (spansNest_indentRow _).orderly).bind fun decision _ => ?_
  refine (Orderly.of_ofExcept fun _ _ => trivial).bind fun column _ => ?_
  refine (Orderly.annotate (fun _ => True) _ _).bind fun _ _ => ?_
  exact (Orderly.annotate (fun _ => True) _ _).bind fun _ _ => Orderly.of_pure trivial

theorem spansNest_newlineAndIndent : SpansNest newlineAndIndent :=
  (Buffer.spansNest_insertText ..).zoom.bind fun _ => spansNest_indentLine

theorem spansNest_indentRegion : SpansNest indentRegion := by
  refine .silently (fun _ => rfl) fun w => ?_
  refine SpansNest.bind (SpansNest.within ?_) fun _ => ?_
  · refine Settings.spansNest_readUnit.zoom.bind fun unit => ?_
    refine Settings.spansNest_readStyle.zoom.bind fun style => ?_
    refine .silently (fun _ => rfl) fun w => ?_
    refine .silently (fun _ => rfl) fun lines => ?_
    exact (Buffer.spansNest_reindentRows ..).zoom.map
  · refine .silently (fun _ => rfl) fun _ => ?_
    exact .silently (fun _ => rfl) fun count => spansNest_of_silent fun _ => rfl

end Command

end LinkerScriptEditor
