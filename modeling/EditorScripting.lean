import EditorScripting.Main
import EditorScripting.Proofs.Bridge.Calls
import EditorScripting.Proofs.Bridge.Complete
import EditorScripting.Proofs.Bridge.Coverage
import EditorScripting.Proofs.Bridge.History
import EditorScripting.Proofs.Bridge.Lookup
import EditorScripting.Proofs.Bridge.Marshalling
import EditorScripting.Proofs.Bridge.PinCalls
import EditorScripting.Proofs.Bridge.Reserved
import EditorScripting.Proofs.Buffer.Lines
import EditorScripting.Proofs.Buffer.Order
import EditorScripting.Proofs.Configuration.Completed
import EditorScripting.Proofs.Diagnostics
import EditorScripting.Proofs.Editor.Functions
import EditorScripting.Proofs.Editor.Ordered
import EditorScripting.Proofs.Editor.References
import EditorScripting.Proofs.Editor.Sentinel
import EditorScripting.Proofs.Guest.Primitives
import EditorScripting.Proofs.Heap.FreeList
import EditorScripting.Proofs.Heap.Handles
import EditorScripting.Proofs.Identifier.Canonical
import EditorScripting.Proofs.Identifier.Documented
import EditorScripting.Proofs.Identifier.Scan
import EditorScripting.Proofs.Identifier.Spelling
import EditorScripting.Proofs.Interpreter.AfterTrip
import EditorScripting.Proofs.Interpreter.Confined
import EditorScripting.Proofs.Interpreter.Globals
import EditorScripting.Proofs.Interpreter.Holding
import EditorScripting.Proofs.Interpreter.Positions
import EditorScripting.Proofs.Interpreter.Reporting
import EditorScripting.Proofs.Interpreter.Starting
import EditorScripting.Proofs.Interpreter.Stopping
import EditorScripting.Proofs.Session.Pins
import EditorScripting.Proofs.Settings.Overlay
import EditorScripting.Proofs.Settings.RoundTrip
import EditorScripting.Session.Basic
import EditorScripting.Proofs.Shared
import EditorScripting.Proofs.Editor.Tidy
import EditorScripting.Proofs.Repl.Prompts
