import EditorScripting.Bridge.Refresh
import EditorScripting.Guest.Command
import EditorScripting.Watchdog

/-!
Running guest code against a host. While it runs, the wrappers that it holds are kept in a list:
each copy adds an entry and a pin, each drop takes one of both away, and what is left at the end is
dropped then.
-/
namespace EditorScripting.Guest

open Host Script

/-- The host of an interpreter together with what goes on around it. -/
structure Surroundings (σ : Type) where
  host : Interface σ
  watchdog : σ → Watchdog
  setWatchdog : Watchdog → σ → σ
  /-- The time in nanoseconds. -/
  now : σ → Nat
  /-- What happens elsewhere before an operation begins and while the host answers: time passes, and
  somebody, the host included, may ask for the evaluation to stop. -/
  meanwhile : σ → σ

/-- The state of running guest code. -/
structure Running (σ : Type) where
  shared : σ
  bridge : Bridge
  operations : Nat
  /-- The wrappers that the guest holds, one entry for each copy. -/
  held : List Handle

namespace Running

variable {σ : Type} (around : Surroundings σ)

/-- Lets time pass. -/
def elapse (r : Running σ) : Running σ := { r with shared := around.meanwhile r.shared }

/-- Lets time pass and asks the watchdog. -/
def poll (r : Running σ) : Option Refusal × Running σ :=
  let r := r.elapse around
  (((around.watchdog r.shared).check (around.now r.shared)).map Refusal.stopped, r)

/-- Begins an operation. A number above the limit is refused before the watchdog is asked. -/
def step (limit : Nat) (r : Running σ) : Option Refusal × Running σ :=
  let r := { r with operations := r.operations + 1 }
  if Limits.exceeds limit r.operations then (some .tooManyOperations, r) else r.poll around

/-- Begins an operation inside the current one. -/
def probe (limit ahead : Nat) (r : Running σ) : Option Refusal × Running σ :=
  if Limits.exceeds limit (r.operations + ahead) then (some .tooManyOperations, r)
  else r.poll around

/-- Takes note of a wrapper that exists already. -/
def hold (h : Handle) (r : Running σ) : Running σ := { r with held := h :: r.held }

/-- Gives the guest a copy of a wrapper. -/
def give (h : Handle) (r : Running σ) : Running σ :=
  { r with shared := Wrapper.copy around.host h r.shared }.hold h

/-- Copies a wrapper that the guest holds. -/
def retain (h : Handle) (r : Running σ) : Running σ :=
  if h ∈ r.held then r.give around h else r

/-- Drops a wrapper that the guest holds. -/
def release (h : Handle) (r : Running σ) : Running σ :=
  if h ∈ r.held then
    { r with shared := Wrapper.drop around.host h r.shared, held := r.held.erase h }
  else r

/-- Drops every wrapper that the guest holds. -/
def releaseAll (r : Running σ) : Running σ :=
  { r with
    shared := r.held.foldl (fun s h => Wrapper.drop around.host h s) r.shared
    held := [] }

/-- What the guest gets for an answer of the host; a failure is handed on in its wording. -/
def answer {α : Type} (f : α → Value) : Except HostError α → Except String Value
  | .ok a => .ok (f a)
  | .error e => .error e.message

/-- The wrappers of a dictionary as a map. -/
def snapshot (d : Dictionary) : Value := .map (d.entries.map fun (name, h) => (name, .object h))

/-- Carries a command out. -/
def perform (c : Command) (r : Running σ) : Except String Value × Running σ :=
  let host := around.host
  let s := r.shared
  match c with
  | .point => let (n, s) := host.point s; (.ok (.int n), { r with shared := s })
  | .pointMin => (.ok (.int (host.pointMin s)), r)
  | .pointMax => (.ok (.int (host.pointMax s)), r)
  | .mark => (.ok (((host.mark s).map Value.int).getD .unit), r)
  | .gotoChar n => let (n, s) := host.gotoChar n s; (.ok (.int n), { r with shared := s })
  | .setMark n => let (n, s) := host.setMark n s; (.ok (.int n), { r with shared := s })
  | .refresh =>
    let (report, bridge, s) := r.bridge.refresh host s
    (.ok .unit, { r with shared := report.drop host s, bridge })
  | .symbols =>
    let d := r.bridge.dictionary
    (.ok (snapshot d), d.entries.foldl (fun r (_, h) => r.give around h) r)
  | .symbol name =>
    match r.bridge.dictionary.find? name with
    | some h => (.ok (.object h), r.give around h)
    | none => (.ok .unit, r)
  | .wrap name =>
    let (h, s) := host.intern name s
    match Wrapper.new host h s with
    | (.ok _, s) => (.ok (.object h), { r with shared := s }.hold h)
    | (.error e, s) => (.error e.message, { r with shared := s })
  | .guestName name => (.ok (.string (Identifier.guestName name)), r)
  | .hostName name => (.ok (.string (Identifier.hostName name)), r)
  | .kind h => (answer .string (Wrapper.kind host s h), r)
  | .name h => (answer (fun n => .string (n.getD "")) (Wrapper.name host s h), r)
  | .isSymbol h => (answer (fun n => .bool n.isSome) (Wrapper.name host s h), r)
  | .isCallable h => (answer .bool (Wrapper.isCallable host s h), r)
  | .display h => (answer .string (Wrapper.display host s h), r)
  | .invoke h =>
    match Wrapper.invoke host h s with
    | (.ok .unit, s) => (.ok .unit, { r with shared := s })
    | (.ok (.integer n), s) => (.ok (.int n), { r with shared := s })
    | (.ok (.string text), s) => (.ok (.string text), { r with shared := s })
    | (.ok (.object h), s) => (.ok (.object h), { r with shared := s }.hold h)
    | (.error e, s) => (.error e.message, { r with shared := s })

/-- The world of guest code that may begin `limit` operations. What happens while the host carries
out a command happens before it. -/
def world (limit : Nat) : World Command (Running σ) where
  step := step around limit
  probe := probe around limit
  retain := retain around
  release := release around
  ask c r := (r.elapse around).perform around c

end Running

end EditorScripting.Guest
