import LinkerScriptEditor.Proofs.Manager.RowByRow
import LinkerScriptEditor.Proofs.Manager.Typing

/-!
# Keys on their own

While no keys are pending, a key that is held without modifiers runs the command it is named for,
and a key that is a character types it. No sequence of the linker script mode begins with a single
character, so no character waits for another key.
-/

namespace LinkerScriptEditor

open Traced

namespace LinkerScriptMode

/-- The keys that run a command by themselves, without modifiers. -/
def plainKeys : List (String × String) :=
  [("TAB", "indent.line"), ("ENTER", "indent.newline"), ("BACKSPACE", "edit.delete_backward"),
    ("LEFT", "cursor.left"), ("RIGHT", "cursor.right"), ("UP", "cursor.up"),
    ("DOWN", "cursor.down")]

theorem lead_plainKeys {token id : String} (listed : (token, id) ∈ plainKeys) :
    Token.normalize token = token ∧
      ((OrderedMap.get? [token] (keymap.table name)).bind keymap.lead?).map Action.id =
        some id := by
  have all : ∀ entry ∈ plainKeys, Token.normalize entry.1 = entry.1 ∧
      ((OrderedMap.get? [entry.1] (keymap.table name)).bind keymap.lead?).map Action.id =
        some entry.2 := by decide +kernel
  exact all _ listed

theorem mem_deleteBackward :
    action "edit.delete_backward" "Delete the character before the cursor"
      Command.deleteBackward ∈ actions := .tail _ (.tail _ (.tail _ (.head _)))

/-- Every sequence of the mode begins with the name of a key or with a modifier. -/
theorem not_prefix_of_mem_table {entry : List String × String} (mem : entry ∈ keymap.table name)
    (c : Char) : ¬[String.singleton c] <+: entry.1 := by
  have long : ∀ entry ∈ keymap.table name,
      entry.1.head?.all (fun first => 1 < first.toList.length) = true := by decide +kernel
  rintro ⟨rest, starts⟩
  have first := long entry mem
  rw [← starts] at first
  simp at first

end LinkerScriptMode

namespace Manager

variable {m : Manager} {key : KeyPress} {id description : String}
  {command : Traced Workspace KeyResult}

/-- There is an idle manager for every buffer. -/
theorem exists_idle (b : Buffer) : ∃ m : Manager, m.Idle ∧ m.workspace.buffer = b :=
  ⟨_, idle_ofBuffer b (Settings.ofEnvironment []), buffer_ofBuffer b _⟩

theorem Idle.activeMode (idle : m.Idle) :
    m.workspace.activeMode? = some ⟨LinkerScriptMode.name, []⟩ := by
  obtain ⟨pending, mode⟩ := idle.installed.inMode.activeMode
  have none := idle.pending
  rw [mode] at none ⊢
  cases none
  rfl

theorem Idle.pend_nil (idle : m.Idle) : m.pend [] = m :=
  idle.installed.inMode.pend_nil idle.activeMode

theorem Idle.keysWith (idle : m.Idle) (key : KeyPress) : m.keysWith key = [key.token] := by
  rw [Manager.keysWith, idle.activeMode]
  rfl

theorem Idle.congr (idle : m.Idle) {w : Workspace} (modes : w.modes = m.workspace.modes)
    (active : w.active = m.workspace.active) : Idle { m with workspace := w } where
  installed := idle.installed.congr modes active
  pending := by
    have pending := idle.pending
    rwa [Workspace.activeMode?, ← modes, ← active] at pending

/-- A key that is named for a command runs it. -/
theorem Idle.press_plain (idle : m.Idle) (listed : (key.token, id) ∈ LinkerScriptMode.plainKeys)
    (mem : LinkerScriptMode.action id description command ∈ LinkerScriptMode.actions) :
    effect (press key) m =
      let ran := effect command m.workspace
      (ran.1, { m with workspace := ran.2 }) := by
  have installed := idle.installed
  obtain ⟨normal, lead⟩ := LinkerScriptMode.lead_plainKeys listed
  rw [← runs?_of_idle installed.keymap idle.pending normal, Option.map_eq_some_iff] at lead
  obtain ⟨a, runs, same⟩ := lead
  have pressed := effect_press_of_id installed.inMode installed.listed runs mem same
  rwa [idle.pend_nil] at pressed

end Manager

namespace KeyPress

/-- The press of the key that types a character. -/
def ofChar (c : Char) : KeyPress := ⟨String.singleton c, [], some (String.singleton c)⟩

/-- A character that a key types: one that is printable, or a tab. -/
def Typeable (c : Char) : Prop := CharClass.isPrintable c = true ∨ c = '\t'

instance (c : Char) : Decidable (Typeable c) :=
  inferInstanceAs (Decidable (CharClass.isPrintable c = true ∨ c = '\t'))

variable {c : Char}

/-- A line that is typed into holds no line feed if it held none before. -/
theorem not_mem_typed {text : List Char} (typeable : ∀ c ∈ text, Typeable c) {left right : Line}
    (free : '\n' ∉ left ++ right) : '\n' ∉ left ++ text ++ right := by
  have untyped : '\n' ∉ text := fun feed => absurd (typeable '\n' feed) (by decide)
  simp only [List.mem_append, not_or] at free ⊢
  exact ⟨⟨free.1, untyped⟩, free.2⟩

theorem normalize_singleton (c : Char) :
    Token.normalize (String.singleton c) = String.singleton c := by
  by_cases plus : c = '+'
  · subst plus
    rfl
  · have whole : splitOn '+' (String.singleton c).toList = [[c]] := by
      simp [splitOn, plus]
    rw [Token.normalize, whole]
    rfl

theorem Typeable.isPrintable (typeable : Typeable c) : (ofChar c).isPrintable = true := by
  rcases typeable with printable | rfl
  · simp [ofChar, KeyPress.isPrintable, printableText, printable]
  · rfl

end KeyPress

namespace Manager

/-- A character is typed at the cursor. -/
theorem Idle.press_ofChar {m : Manager} (idle : m.Idle) {c : Char}
    (typeable : KeyPress.Typeable c) :
    effect (press (.ofChar c)) m =
      let typed := effect (Buffer.insertText [c] none) m.workspace.buffer
      (typed.1.map fun _ => .plain "insert",
        { m with workspace := { m.workspace with buffer := typed.2 } }) := by
  have missed : effect (Keymap.resolve LinkerScriptMode.name (m.keysWith (.ofChar c))) m.keymap =
      (.ok .miss, m.keymap) := by
    apply Keymap.effect_resolve_of_miss
    rw [idle.installed.keymap, idle.keysWith, List.map_singleton]
    have token : (KeyPress.ofChar c).token = String.singleton c := rfl
    rw [token, KeyPress.normalize_singleton]
    exact fun entry mem => LinkerScriptMode.not_prefix_of_mem_table mem c
  rw [press_of_resolution idle.installed.inMode missed, answered,
    if_pos typeable.isPrintable, idle.pend_nil]
  have text : ((KeyPress.ofChar c).text.getD "").toList = [c] := by
    simp [KeyPress.ofChar]
  rw [text]

end Manager

end LinkerScriptEditor
