import EditorScripting.Proofs.Guest.Tracks
import EditorScripting.Proofs.Table
import EditorScripting.Session.Stage

/-!
Requests to stop, and the answers that they got. The states of the surroundings are read for a log
of all answers so far.
-/
namespace EditorScripting

open Host Guest

/-- Some requests to stop, one after the other: their answers and the watchdog in the end. -/
def Watchdog.asked (w : Watchdog) : Nat → List Bool × Watchdog
  | 0 => ([], w)
  | n + 1 =>
    let (answers, w) := w.asked n
    (answers ++ [w.cancel.1], w.cancel.2)

/-- What one request preserves, any number of them preserve. -/
theorem Watchdog.asked_keeps {I : List Bool → Watchdog → Prop}
    (hI : ∀ log w, I log w → I (log ++ [w.cancel.1]) w.cancel.2) {log : List Bool} {w : Watchdog}
    (hw : I log w) (n : Nat) : I (log ++ (w.asked n).1) (w.asked n).2 := by
  induction n with
  | zero => simpa [asked] using hw
  | succ n ih =>
    have hnext := hI _ _ ih
    rw [List.append_assoc] at hnext
    exact hnext

theorem Watchdog.asked_add (w : Watchdog) (m n : Nat) :
    w.asked (m + n) =
      ((w.asked m).1 ++ ((w.asked m).2.asked n).1, ((w.asked m).2.asked n).2) := by
  induction n with
  | zero => simp [asked]
  | succ n ih =>
    rw [← Nat.add_assoc, asked, ih]
    simp [asked]

namespace Guest.Surroundings

variable {σ : Type}

/-- A change of the surroundings does no more to the watchdog than to ask it to stop, as often as it
likes, and every answer is written down. -/
def Hears (around : Surroundings σ) (answers : σ → List Bool) (f : σ → σ) : Prop :=
  ∀ s, ∃ n, answers (f s) = answers s ++ ((around.watchdog s).asked n).1 ∧
    around.watchdog (f s) = ((around.watchdog s).asked n).2

/-- The host and all others may ask the watchdog to stop, at any time, and can do nothing else to
it. Setting the watchdog is no request. -/
structure Monitored (around : Surroundings σ) (answers : σ → List Bool) : Prop where
  watchdog_setWatchdog : ∀ w s, around.watchdog (around.setWatchdog w s) = w
  answers_setWatchdog : ∀ w s, answers (around.setWatchdog w s) = answers s
  meanwhile : around.Hears answers around.meanwhile
  intern : ∀ name, around.Hears answers fun s => (around.host.intern name s).2
  makeString : ∀ text, around.Hears answers fun s => (around.host.makeString text s).2
  pin : ∀ h, around.Hears answers fun s => (around.host.pin h s).2
  unpin : ∀ h, around.Hears answers (around.host.unpin h)
  funcall : ∀ f, around.Hears answers fun s => (around.host.funcall f s).2
  point : around.Hears answers fun s => (around.host.point s).2
  gotoChar : ∀ n, around.Hears answers fun s => (around.host.gotoChar n s).2
  setMark : ∀ n, around.Hears answers fun s => (around.host.setMark n s).2

variable {around : Surroundings σ} {answers : σ → List Bool}

/-- One change after another. -/
theorem Hears.comp {f g : σ → σ} (hf : around.Hears answers f) (hg : around.Hears answers g) :
    around.Hears answers fun s => g (f s) := by
  intro s
  obtain ⟨m, hlog, hw⟩ := hf s
  obtain ⟨n, hlog', hw'⟩ := hg (f s)
  rw [hlog, hw, List.append_assoc] at hlog'
  rw [hw] at hw'
  refine ⟨m + n, ?_, ?_⟩
  · rw [hlog', Watchdog.asked_add]
  · rw [hw', Watchdog.asked_add]

variable {I : List Bool → Watchdog → Prop}
  (hI : ∀ log w, I log w → I (log ++ [w.cancel.1]) w.cancel.2)
include hI

theorem Hears.keeps {f : σ → σ} (hf : around.Hears answers f) {s : σ}
    (hs : I (answers s) (around.watchdog s)) : I (answers (f s)) (around.watchdog (f s)) := by
  obtain ⟨n, hlog, hw⟩ := hf s
  rw [hlog, hw]
  exact Watchdog.asked_keeps hI hs n

/-- What requests preserve is an invariant of the surroundings. -/
theorem Monitored.tracks (hm : around.Monitored answers) :
    around.Tracks fun _ s => I (answers s) (around.watchdog s) where
  host :=
    { intern name hs := (hm.intern name).keeps hI hs
      makeString text hs := (hm.makeString text).keeps hI hs
      funcall f hs := (hm.funcall f).keeps hI hs
      point hs := hm.point.keeps hI hs
      gotoChar n hs := (hm.gotoChar n).keeps hI hs
      setMark n hs := (hm.setMark n).keeps hI hs
      pin h hs := by
        have hpin := (hm.pin h).keeps hI hs
        split <;> rename_i hp <;> rw [hp] at hpin <;> exact hpin
      copy h hs _ := (hm.pin h).keeps hI hs
      unpin h hs := (hm.unpin h).keeps hI hs }
  meanwhile hs := hm.meanwhile.keeps hI hs

end Guest.Surroundings

namespace Session.Stage

/-- The answers that the hooks got from one interpreter. -/
def answersOf (name : String) (s : Stage) : List Bool :=
  if s.hooks.cancelOnPoint = some name then s.cancelResults else []

/-- Others than the hooks leave watchdogs and log alone. -/
theorem hears_of_same {name : String} {f : Stage → Stage}
    (hf : ∀ s, (f s).watchdogs = s.watchdogs ∧ (f s).hooks = s.hooks ∧
      (f s).cancelResults = s.cancelResults) : (around name).Hears (answersOf name) f := by
  intro s
  obtain ⟨hw, hh, hc⟩ := hf s
  refine ⟨0, ?_, ?_⟩
  · unfold answersOf
    rw [hh, hc]
    exact (List.append_nil _).symm
  · unfold around watchdog
    dsimp only
    rw [hw]
    rfl

theorem hears_hookedCancel (name : String) : (around name).Hears (answersOf name) hookedCancel := by
  intro s
  unfold hookedCancel
  split
  · rename_i other hother
    by_cases hn : other = name
    · subst hn
      refine ⟨1, ?_, ?_⟩
      · simp [answersOf, hother, cancel, setWatchdog, Watchdog.asked, around]
      · simp [Watchdog.asked, cancel, setWatchdog, around, watchdog]
    · refine ⟨0, ?_, ?_⟩
      · simp [answersOf, hother, hn, cancel, setWatchdog, Watchdog.asked]
      · simp [Watchdog.asked, cancel, setWatchdog, around, watchdog,
          Std.TreeMap.getElem?_insert, hn]
  · exact ⟨0, (List.append_nil _).symm, rfl⟩

/-- Telling point counts the call, and then runs the hooks one by one. -/
theorem hears_point (name : String) :
    (around name).Hears (answersOf name) fun s => (point s).2 := by
  have hcount : (around name).Hears (answersOf name) fun s =>
      { s with pointCalls := s.pointCalls + 1 } := hears_of_same fun _ => ⟨rfl, rfl, rfl⟩
  have hclock : ∀ clock : Stage → Nat,
      (around name).Hears (answersOf name) fun s => { s with clock := clock s } :=
    fun _ => hears_of_same fun _ => ⟨rfl, rfl, rfl⟩
  have hsleep : (around name).Hears (answersOf name) hookedSleep :=
    hclock fun s => s.clock + s.hooks.sleepOnPoint * 1000000
  have hcollect : (around name).Hears (answersOf name) hookedCollect :=
    hears_of_same fun s => by
      unfold hookedCollect
      split <;> exact ⟨rfl, rfl, rfl⟩
  exact ((hcount.comp (hears_hookedCancel name)).comp hsleep).comp hcollect

/-- The hooks write down all answers that they get. -/
theorem monitored_around (name : String) : (around name).Monitored (answersOf name) where
  watchdog_setWatchdog w s := by simp [around, watchdog, setWatchdog]
  answers_setWatchdog w s := rfl
  meanwhile := hears_of_same fun _ => ⟨rfl, rfl, rfl⟩
  intern _ := hears_of_same fun _ => ⟨rfl, rfl, rfl⟩
  makeString _ := hears_of_same fun _ => ⟨rfl, rfl, rfl⟩
  pin h := hears_of_same fun s => by
    unfold around host pin
    dsimp only
    split <;> exact ⟨rfl, rfl, rfl⟩
  unpin _ := hears_of_same fun _ => ⟨rfl, rfl, rfl⟩
  funcall _ := hears_of_same fun _ => ⟨rfl, rfl, rfl⟩
  point := hears_point name
  gotoChar _ := hears_of_same fun _ => ⟨rfl, rfl, rfl⟩
  setMark _ := hears_of_same fun _ => ⟨rfl, rfl, rfl⟩

end Session.Stage

end EditorScripting
