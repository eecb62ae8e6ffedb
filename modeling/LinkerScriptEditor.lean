import LinkerScriptEditor.Main
import LinkerScriptEditor.Datum.Collection
import LinkerScriptEditor.Datum.Json
import LinkerScriptEditor.Log.Session
import LinkerScriptEditor.Proofs.Buffer.Operation
import LinkerScriptEditor.Proofs.Buffer.Timeline
import LinkerScriptEditor.Proofs.Comment.Sharing
import LinkerScriptEditor.Proofs.Comment.Flat
import LinkerScriptEditor.Proofs.Comment.Views
import LinkerScriptEditor.Proofs.Document.Lines
import LinkerScriptEditor.Proofs.Buffer.Sound
import LinkerScriptEditor.Proofs.Indent.Column
import LinkerScriptEditor.Proofs.Indent.Pass
import LinkerScriptEditor.Proofs.Indent.Noninterference
import LinkerScriptEditor.Proofs.Indent.Closing
import LinkerScriptEditor.Proofs.Command.Safety
import LinkerScriptEditor.Proofs.Command.Indentation
import LinkerScriptEditor.Proofs.Keymap.Serving
import LinkerScriptEditor.Proofs.Keymap.Calls
import LinkerScriptEditor.Proofs.Log.Zoom
import LinkerScriptEditor.Proofs.Manager.Start
import LinkerScriptEditor.Proofs.Manager.Press
import LinkerScriptEditor.Proofs.Manager.Session
import LinkerScriptEditor.Proofs.Keymap.Installing
import LinkerScriptEditor.Proofs.Manager.Registration
import LinkerScriptEditor.Proofs.Workspace.Announcement
import LinkerScriptEditor.Proofs.Indent.Range
import LinkerScriptEditor.Proofs.Buffer.Returns
import LinkerScriptEditor.Proofs.Workspace.Worked
import LinkerScriptEditor.Proofs.Command.Mild
import LinkerScriptEditor.Proofs.Manager.Courtesy
import LinkerScriptEditor.Proofs.Manager.Switching
import LinkerScriptEditor.Proofs.Text.Utf8
import LinkerScriptEditor.Proofs.FileTree
import LinkerScriptEditor.Proofs.Log.Preserves
import LinkerScriptEditor.Proofs.App.Saving
import LinkerScriptEditor.Proofs.Manager.Selecting
import LinkerScriptEditor.Proofs.EventBus.Subscriptions
import LinkerScriptEditor.Proofs.EventBus.Narration
import LinkerScriptEditor.Proofs.Log.Nesting
import LinkerScriptEditor.Proofs.Log.Orderly
import LinkerScriptEditor.Proofs.Command.Spans
import LinkerScriptEditor.Proofs.Manager.Spans
import LinkerScriptEditor.Proofs.Buffer.Versions
import LinkerScriptEditor.Proofs.App.Versions
import LinkerScriptEditor.Proofs.CommandLine.Reindent
import LinkerScriptEditor.Proofs.Buffer.Splicing
import LinkerScriptEditor.Proofs.Command.Following
import LinkerScriptEditor.Proofs.Indent.Nesting
import LinkerScriptEditor.Proofs.View.Lifetime
import LinkerScriptEditor.Proofs.Indent.Erasure
import LinkerScriptEditor.Proofs.Indent.Styles
import LinkerScriptEditor.Proofs.Indent.Grid
import LinkerScriptEditor.Proofs.Indent.Stages
import LinkerScriptEditor.Proofs.Buffer.Reading
import LinkerScriptEditor.Proofs.Buffer.Restoring
import LinkerScriptEditor.Proofs.Manager.Repeating
import LinkerScriptEditor.Proofs.Manager.RowByRow
import LinkerScriptEditor.Proofs.Key.Canonical
import LinkerScriptEditor.Proofs.Manager.Typing
import LinkerScriptEditor.Proofs.Mode.Loading
import LinkerScriptEditor.Proofs.Classification.Precedence
import LinkerScriptEditor.Proofs.Classification.Reserved
import LinkerScriptEditor.Proofs.Manager.Walking
import LinkerScriptEditor.Proofs.Manager.Inserting
import LinkerScriptEditor.Proofs.Highlight.Landing
