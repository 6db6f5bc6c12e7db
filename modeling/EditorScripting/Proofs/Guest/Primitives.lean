import EditorScripting.Guest.Run
import EditorScripting.Proofs.Bridge.Calls
import EditorScripting.Proofs.Bridge.Display
import EditorScripting.Proofs.Guest.Tracks

/-!
Two ways to the same fact. Guest code can ask the editor's module for a position, or wrap the symbol
of a primitive by its name and call it. The first way reads the buffer; the second one finds the
primitive behind the name, makes its value an object of the heap and hands that over. They agree as
long as the primitives have their names, and neither leaves anything behind but a new object.
-/
namespace EditorScripting

open Host Guest Script

namespace Host.Heap

variable {α : Type}

theorem size_alloc_eq (heap : Heap α) (v : α) :
    (heap.alloc v).2.slots.size = heap.slots.size + if heap.free = [] then 1 else 0 := by
  cases hfree : heap.free with
  | nil =>
    rw [alloc_grow hfree]
    simp
  | cons index free => simp [alloc, hfree]

end Host.Heap

namespace Host.Editor

/-- There is room for one more object. -/
def HasRoom (e : Editor) : Prop := ∀ v, (e.make v).2.heap.Fits

/-- The editor was made on the buffer and used since, and no primitive has lost its name. -/
def Named (buffer : Buffer) (e : Editor) : Prop :=
  ∃ ops, e = run buffer ops ∧ ∀ p : Primitive, Op.unintern p.name ∉ ops

variable {e : Editor} {buffer : Buffer} {h : Handle} {p : Primitive}

theorem hasRoom_of_lt (hlt : e.heap.slots.size < UInt32.size) : e.HasRoom := by
  intro v
  cases v with
  | nil => exact Nat.le_of_lt hlt
  | _ => exact Nat.le_trans (Heap.size_alloc_le _ _) hlt

theorem HasRoom.fits (hroom : e.HasRoom) : e.heap.Fits := hroom .nil

/-- Whether the heap grows does not depend on pins. -/
theorem size_make_pin (e : Editor) (h : Handle) (v : Object) :
    ((e.pin h).2.make v).2.heap.slots.size = (e.make v).2.heap.slots.size := by
  have hsize := Heap.size_modifyPins e.heap h (· + 1)
  have hfree := Heap.free_modifyPins e.heap h (· + 1)
  rw [pin_snd]
  cases v with
  | nil => exact hsize
  | _ => simp only [make, Heap.size_alloc_eq, hsize, hfree]

theorem HasRoom.pin (hroom : e.HasRoom) (h : Handle) : (e.pin h).2.HasRoom := fun v =>
  Nat.le_trans (Nat.le_of_eq (e.size_make_pin h v)) (hroom v)

/-! Primitives that have their names. -/

theorem Named.apply (he : e.Named buffer) (op : Op)
    (hop : ∀ p : Primitive, op ≠ .unintern p.name) :
    (op.apply e).Named buffer := by
  obtain ⟨ops, rfl, hnever⟩ := he
  refine ⟨ops ++ [op], (run_concat buffer ops op).symm, fun p hm => ?_⟩
  rcases List.mem_append.mp hm with hm | hm
  · exact hnever p hm
  · exact hop p (List.mem_singleton.mp hm).symm

theorem Named.pin (he : e.Named buffer) (h : Handle) : (e.pin h).2.Named buffer :=
  he.apply (.pin h) nofun

theorem Named.unpin (he : e.Named buffer) (h : Handle) : (e.unpin h).Named buffer :=
  he.apply (.unpin h) nofun

theorem Named.steady (he : e.Named buffer) : e.Steady := by
  obtain ⟨ops, rfl, -⟩ := he
  exact steady_run buffer ops

theorem Named.referring (he : e.Named buffer) (hf : e.heap.Fits) : e.Referring := by
  obtain ⟨ops, rfl, -⟩ := he
  exact referring_run hf

theorem Named.text (he : e.Named buffer) : e.buffer.text = buffer.text := by
  obtain ⟨ops, rfl, -⟩ := he
  exact text_run buffer ops

theorem Named.function (he : e.Named buffer) (p : Primitive) :
    ∃ f, e.functionCell p.name = some f ∧ e.heap.get f = .ok (.primitive p) := by
  have hcell : (e.functionCell p.name).isSome = true := by
    obtain ⟨ops, rfl, hnever⟩ := he
    exact (functionCell_run buffer ops p.name).mpr ⟨⟨p, rfl⟩, hnever p⟩
  obtain ⟨f, hf⟩ := Option.isSome_iff_exists.mp hcell
  obtain ⟨q, hname, hanchored⟩ := he.steady.function p.name f hf
  rw [Primitive.name_injective hname] at hanchored
  exact ⟨f, hf, Heap.get_of_get? hanchored.object⟩

/-- A symbol of the name calls the primitive. -/
theorem Named.resolve (he : e.Named buffer) (hn : e.symbolName h = .ok (some p.name)) :
    e.resolve h = .ok p := by
  obtain ⟨f, hf, hprimitive⟩ := he.function p
  rcases he.steady.resolve_of_symbolName hn with ⟨hnone, -⟩ | ⟨g, q, hg, hq, hr⟩
  · rw [hf] at hnone
    cases hnone
  · rw [hf] at hg
    cases hg
    rw [hprimitive] at hq
    cases hq
    exact hr

/-- The symbol of the name is in the table, so interning finds it and makes nothing. -/
theorem Named.symbol (he : e.Named buffer) (hf : e.heap.Fits) (p : Primitive) :
    ∃ h, e.intern p.name = (h, e) ∧ e.symbolName h = .ok (some p.name) := by
  obtain ⟨f, hfunction, -⟩ := he.function p
  obtain ⟨cell, hcell, -⟩ := Option.bind_eq_some_iff.mp hfunction
  have hr := he.referring hf
  have hintern : e.intern p.name = (cell.symbol, e) := by
    unfold intern
    rw [hcell]
  have hfits : (e.intern p.name).2.heap.Fits := by
    rw [hintern]
    exact hf
  have hname := (symbolName_intern hr hfits).2
  rw [hintern] at hname
  exact ⟨cell.symbol, hintern, hname⟩

theorem symbolName_pin (e : Editor) (g h : Handle) :
    (e.pin g).2.symbolName h = e.symbolName h := by
  rw [pin_snd, symbolName, symbolName, Heap.get, Heap.get?_modifyPins, Heap.get]

/-- A call under a pin of one's own leaves all but a new object as it was. -/
theorem CallKeeps.unpin {e' : Editor} (hkeeps : (e.pin h).2.CallKeeps e') (hf : e'.heap.Fits)
    (hl : e.heap.isLive h = true) :
    (e'.unpin h).buffer = e.buffer ∧ (e'.unpin h).obarray = e.obarray ∧
    (∀ g, (e'.unpin h).heap.pinCount g = e.heap.pinCount g) ∧
    ∀ g v, e.heap.get g = .ok v → (e'.unpin h).heap.get g = .ok v := by
  refine ⟨hkeeps.buffer, hkeeps.obarray, fun g => ?_, fun g v hv => ?_⟩
  · change (e'.heap.unpin h).pinCount g = e.heap.pinCount g
    rw [Heap.pinCount_unpin, hkeeps.pins hf, Wrapper.pinCount_pin hl]
    by_cases hg : g = h <;> simp [hg]
  · have hpinned : (e.pin h).2.heap.get g = .ok v := by
      rw [pin_snd, Heap.get, Heap.get?_modifyPins]
      exact hv
    have hcalled := hkeeps.objects hf g v hpinned
    change (e'.heap.modifyPins h (· - 1)).get g = .ok v
    rw [Heap.get, Heap.get?_modifyPins]
    exact hcalled

theorem HasRoom.funcall (hroom : e.HasRoom) (f : Handle) : (e.funcall f).2.heap.Fits := by
  rcases funcall_snd e f with hsame | ⟨v, hmade⟩
  · rw [hsame]
    exact hroom.fits
  · rw [hmade]
    exact hroom v

theorem Named.callKeeps (he : e.Named buffer) (f : Handle) : e.CallKeeps (e.funcall f).2 :=
  callKeeps_funcall he.referring f

/-- What guest code can do to the editor takes no name away. -/
theorem named_tracks (buffer : Buffer) : Editor.interface.Tracks fun _ e => e.Named buffer where
  intern name he := he.apply (.intern name) nofun
  makeString text he := he.apply (.makeString text) nofun
  funcall f he := he.apply (.funcall f) nofun
  point he := he
  gotoChar n he := he.apply (.gotoChar n) nofun
  setMark n he := he.apply (.setMark n) nofun
  pin {_ e} h he := by
    have hpin : (Editor.interface.pin h e).2.Named buffer := he.pin h
    split <;> rename_i hp <;> rw [hp] at hpin <;> exact hpin
  copy h he _ := he.pin h
  unpin h he := he.unpin h

/-- What a primitive computes is handed over by value. -/
theorem marshalled_primitiveValue (e : Editor) (p : Primitive) (g : Handle) :
    (e.primitiveValue p).marshalled g ≠ .object g := by
  cases p with
  | mark => cases hmark : e.buffer.mark <;> simp [primitiveValue, hmark, Object.marshalled]
  | _ => simp [primitiveValue, Object.marshalled]

end Host.Editor

namespace Wrapper

variable {e : Editor} {buffer : Buffer} {h : Handle} {p : Primitive}

/-- A call of a primitive through a wrapper of its symbol hands the value over that is made. -/
theorem invoke_primitive (he : e.Named buffer) (hroom : e.HasRoom)
    (hn : e.symbolName h = .ok (some p.name)) :
    invoke Editor.interface h e =
      (.ok ((e.primitiveValue p).marshalled (e.make (e.primitiveValue p)).1),
        (e.funcall h).2) := by
  have hcall := Editor.funcall_of_resolve (he.resolve hn)
  have hcallable : e.isCallable h = .ok true :=
    Editor.isCallable_true_iff.mpr ⟨_, congrArg Prod.fst hcall⟩
  have hsteady : (e.make (e.primitiveValue p)).2.Steady := he.steady.make _
  have hmade := Editor.get?_make (hroom (e.primitiveValue p)) (he.referring hroom.fits)
  rw [invoke_of_callable hcallable (congrArg Prod.fst hcall), hcall,
    marshal_of_live hsteady hmade, if_neg (e.marshalled_primitiveValue p _)]

end Wrapper

namespace Guest.Running

variable {σ : Type} (around : Surroundings σ)

/-- The symbol of a name is wrapped and called, and the wrapper is dropped. -/
def callNamed (name : String) (r : Running σ) : Except String Value × Running σ :=
  match r.perform around (.wrap name) with
  | (.ok (.object h), r) =>
    let (result, r) := r.perform around (.invoke h)
    (result, r.release around h)
  | refused => refused

/-- What the guest gets from a primitive. -/
def primitiveAnswer (b : Buffer) : Primitive → Value
  | .point => .int b.point
  | .pointMin => .int b.pointMin
  | .pointMax => .int b.pointMax
  | .bufferSize => .int b.size
  | .bufferString => .string b.text
  | .mark => (b.mark.map fun n => Value.int n).getD .unit
  | .lineNumberAtPos => .int (b.lineNumberAt (UInt64.ofNat b.point))

variable {around : Surroundings Editor} {buffer : Buffer} {r : Running Editor} {h : Handle}
  {p : Primitive}

theorem perform_wrap (hhost : around.host = Editor.interface) {name : String}
    (hintern : r.shared.intern name = (h, r.shared))
    (hn : r.shared.symbolName h = .ok (some name)) :
    r.perform around (.wrap name) =
      (.ok (.object h), { r with shared := (r.shared.pin h).2 }.hold h) := by
  have hpin : r.shared.pin h = (.ok (), (r.shared.pin h).2) :=
    Prod.ext (Editor.pin_of_live (Editor.isLive_of_symbolName hn)) rfl
  have hfound : Editor.interface.intern name r.shared = (h, r.shared) := hintern
  have hnew : Wrapper.new Editor.interface h r.shared = (.ok (), (r.shared.pin h).2) := hpin
  simp only [perform, hhost, hfound, hnew]

theorem perform_invoke (hhost : around.host = Editor.interface) (he : r.shared.Named buffer)
    (hroom : r.shared.HasRoom) (hn : r.shared.symbolName h = .ok (some p.name)) :
    r.perform around (.invoke h) =
      (.ok (primitiveAnswer r.shared.buffer p),
        { r with shared := (r.shared.funcall h).2 }) := by
  have hinvoke := Wrapper.invoke_primitive he hroom hn
  unfold perform
  rw [hhost]
  dsimp only
  rw [hinvoke]
  cases p with
  | mark =>
    cases hmark : r.shared.buffer.mark <;>
      simp [Editor.primitiveValue, primitiveAnswer, hmark, Object.marshalled]
  | _ => rfl

theorem release_held (hhost : around.host = Editor.interface) (hm : h ∈ r.held) :
    r.release around h = { r with shared := r.shared.unpin h, held := r.held.erase h } := by
  unfold release
  rw [if_pos hm, hhost]
  rfl

/-- The symbol is pinned and called, and the pin is taken away. -/
theorem callNamed_primitive (hhost : around.host = Editor.interface)
    (he : r.shared.Named buffer) (hroom : r.shared.HasRoom) (p : Primitive) :
    ∃ h, r.shared.heap.isLive h = true ∧
      r.callNamed around p.name = (.ok (primitiveAnswer r.shared.buffer p),
        { r with shared := ((r.shared.pin h).2.funcall h).2.unpin h }) := by
  obtain ⟨h, hintern, hn⟩ := he.symbol hroom.fits p
  have hn' : (r.shared.pin h).2.symbolName h = .ok (some p.name) :=
    (r.shared.symbolName_pin h h).trans hn
  let wrapped : Running Editor := { r with shared := (r.shared.pin h).2 }.hold h
  let called : Running Editor := { wrapped with shared := (wrapped.shared.funcall h).2 }
  have hwrap : r.perform around (.wrap p.name) = (.ok (.object h), wrapped) :=
    perform_wrap hhost hintern hn
  have hinvoke : wrapped.perform around (.invoke h) =
      (.ok (primitiveAnswer wrapped.shared.buffer p), called) :=
    perform_invoke hhost (he.pin h) (hroom.pin h) hn'
  have hheld : called.held = h :: r.held := rfl
  have hrelease : called.release around h =
      { called with shared := called.shared.unpin h, held := r.held } := by
    rw [release_held hhost (by rw [hheld]; exact List.mem_cons_self), hheld, List.erase_cons_head]
  refine ⟨h, Editor.isLive_of_symbolName hn, ?_⟩
  unfold callNamed
  rw [hwrap]
  dsimp only
  rw [hinvoke]
  dsimp only
  rw [hrelease]
  rfl

/-- The module's functions read the buffer and change nothing. -/
theorem perform_reads (hhost : around.host = Editor.interface) :
    r.perform around .point = (.ok (primitiveAnswer r.shared.buffer .point), r) ∧
    r.perform around .pointMin = (.ok (primitiveAnswer r.shared.buffer .pointMin), r) ∧
    r.perform around .pointMax = (.ok (primitiveAnswer r.shared.buffer .pointMax), r) ∧
    r.perform around .mark = (.ok (primitiveAnswer r.shared.buffer .mark), r) := by
  have hmark : (r.shared.buffer.mark.map fun n => (n : Int)).map Value.int =
      r.shared.buffer.mark.map fun n => Value.int n := by
    rw [Option.map_map]
    rfl
  simp only [perform, hhost, primitiveAnswer, ← hmark]
  exact ⟨rfl, rfl, rfl, rfl⟩

/-- What a call through a wrapper leaves as it was. -/
theorem callNamed_keeps (hhost : around.host = Editor.interface) (he : r.shared.Named buffer)
    (hroom : r.shared.HasRoom) (p : Primitive) :
    let r' := (r.callNamed around p.name).2
    r'.shared.buffer = r.shared.buffer ∧ r'.shared.obarray = r.shared.obarray ∧
    (∀ g, r'.shared.heap.pinCount g = r.shared.heap.pinCount g) ∧
    (∀ g v, r.shared.heap.get g = .ok v → r'.shared.heap.get g = .ok v) ∧
    r' = { r with shared := r'.shared } ∧ r'.shared.Named buffer := by
  intro r'
  obtain ⟨h, hl, hcall⟩ := callNamed_primitive hhost he hroom p
  have hafter : r' = { r with shared := ((r.shared.pin h).2.funcall h).2.unpin h } :=
    congrArg Prod.snd hcall
  obtain ⟨hbuffer, hobarray, hpins, hobjects⟩ :=
    ((he.pin h).callKeeps h).unpin ((hroom.pin h).funcall h) hl
  rw [hafter]
  exact ⟨hbuffer, hobarray, hpins, hobjects, rfl,
    ((he.pin h).apply (.funcall h) nofun).unpin h⟩

theorem named_perform (hhost : around.host = Editor.interface) (he : r.shared.Named buffer)
    (c : Command) : (r.perform around c).2.shared.Named buffer := by
  let alone : Surroundings Editor := { around with meanwhile := id }
  have ht : alone.Tracks fun _ e => e.Named buffer :=
    ⟨hhost.symm ▸ Editor.named_tracks buffer, fun hb => hb⟩
  exact accounts_perform (m := 0) ht c he

/-- As long as the primitives have their names, whatever else was done to the editor, the module's
functions and the primitives of these names give the guest the same: point, the first position, the
last one, and the mark, which is unit in both if it is not set. The size is one less than the last
position, the text is the one that the buffer was made with and has that many characters, and the
line is that of point. A function of the module changes nothing, and a call through a wrapper of the
symbol leaves nothing behind but the object of its value, for which there has to be room. No guest
code takes a name away, so this is so again after any of it. -/
theorem primitives_agree (hhost : around.host = Editor.interface) (he : r.shared.Named buffer)
    (hroom : r.shared.HasRoom) :
    let e := r.shared
    let asked := fun c : Command => r.perform around c
    let called := fun p : Primitive => r.callNamed around p.name
    ((called .point).1 = (asked .point).1 ∧ (called .pointMin).1 = (asked .pointMin).1 ∧
      (called .pointMax).1 = (asked .pointMax).1 ∧ (called .mark).1 = (asked .mark).1) ∧
    ((asked .point).1 = .ok (.int e.buffer.point) ∧ (asked .pointMin).1 = .ok (.int 1) ∧
      (asked .pointMax).1 = .ok (.int e.buffer.pointMax) ∧
      (e.buffer.mark = none → (asked .mark).1 = .ok .unit) ∧
      ∀ n, e.buffer.mark = some n → (asked .mark).1 = .ok (.int n)) ∧
    ((called .bufferSize).1 = .ok (.int (e.buffer.pointMax - 1)) ∧
      (called .bufferString).1 = .ok (.string buffer.text) ∧
      (buffer.text.length : Int) = e.buffer.pointMax - 1 ∧
      (called .lineNumberAtPos).1 =
        .ok (.int (e.buffer.lineNumberAt (UInt64.ofNat e.buffer.point)))) ∧
    (∀ c ∈ [Command.point, .pointMin, .pointMax, .mark], (asked c).2 = r) ∧
    (∀ p, let r' := (called p).2
      r'.shared.buffer = e.buffer ∧ r'.shared.obarray = e.obarray ∧
      (∀ g, r'.shared.heap.pinCount g = e.heap.pinCount g) ∧
      (∀ g v, e.heap.get g = .ok v → r'.shared.heap.get g = .ok v) ∧
      r' = { r with shared := r'.shared } ∧ r'.shared.Named buffer) ∧
    ∀ c, (asked c).2.shared.Named buffer := by
  intro e asked called
  have hanswer : ∀ p, (called p).1 = .ok (primitiveAnswer e.buffer p) := by
    intro p
    obtain ⟨h, -, hcall⟩ := callNamed_primitive hhost he hroom p
    exact congrArg Prod.fst hcall
  obtain ⟨hpoint, hfirst, hlast, hmark⟩ := perform_reads (r := r) hhost
  have hsize : (e.buffer.size : Int) = e.buffer.pointMax - 1 := by
    simp [Buffer.pointMax]
  have htext : e.buffer.text = buffer.text := he.text
  refine ⟨⟨?_, ?_, ?_, ?_⟩, ⟨?_, ?_, ?_, ?_, ?_⟩, ⟨?_, ?_, ?_, hanswer .lineNumberAtPos⟩, ?_,
    callNamed_keeps hhost he hroom, named_perform hhost he⟩
  · exact (hanswer .point).trans (congrArg Prod.fst hpoint).symm
  · exact (hanswer .pointMin).trans (congrArg Prod.fst hfirst).symm
  · exact (hanswer .pointMax).trans (congrArg Prod.fst hlast).symm
  · exact (hanswer .mark).trans (congrArg Prod.fst hmark).symm
  · exact congrArg Prod.fst hpoint
  · exact congrArg Prod.fst hfirst
  · exact congrArg Prod.fst hlast
  · intro hunset
    have hunit := congrArg Prod.fst hmark
    rwa [primitiveAnswer, hunset] at hunit
  · intro n hset
    have hnumber := congrArg Prod.fst hmark
    rwa [primitiveAnswer, hset] at hnumber
  · rw [hanswer, primitiveAnswer, hsize]
  · rw [hanswer, primitiveAnswer, htext]
  · rw [← htext, ← hsize]
    rfl
  · intro c hc
    simp only [List.mem_cons, List.not_mem_nil, or_false] at hc
    rcases hc with rfl | rfl | rfl | rfl
    · exact congrArg Prod.snd hpoint
    · exact congrArg Prod.snd hfirst
    · exact congrArg Prod.snd hlast
    · exact congrArg Prod.snd hmark

/-- Point is moved, a symbol is pinned and unpinned, a name is taken away and garbage is collected;
the mark is not set. -/
def moves : List Editor.Op :=
  [.gotoChar 5, .pin ⟨3, 0⟩, .makeString "kept", .unpin ⟨3, 0⟩, .unintern "tab-width", .collect]

/-- Guest code on an editor after that, with nothing around it. -/
def moved : Running Editor :=
  ⟨Editor.run (.ofText "one\ntwo" none) moves, ⟨"refresh", ∅, .empty 8⟩, 0, []⟩

def unattended : Surroundings Editor :=
  ⟨Editor.interface, fun _ => .idle, fun _ e => e, fun _ => 0, id⟩

/-- Point is behind the line break, and the unset mark is unit on both ways. -/
theorem primitives_agree_moved :
    unattended.host = Editor.interface ∧ moved.shared.Named (.ofText "one\ntwo" none) ∧
    moved.shared.HasRoom ∧
    (moved.callNamed unattended "point").1 = .ok (.int 5) ∧
    (moved.perform unattended .point).1 = .ok (.int 5) ∧
    (moved.callNamed unattended "mark").1 = .ok .unit ∧
    (moved.perform unattended .mark).1 = .ok .unit ∧
    (moved.callNamed unattended "buffer-size").1 = .ok (.int 7) ∧
    (moved.callNamed unattended "buffer-string").1 = .ok (.string "one\ntwo") ∧
    (moved.callNamed unattended "line-number-at-pos").1 = .ok (.int 2) ∧
    (moved.callNamed unattended "point").2.shared.heap.pinCount ⟨3, 0⟩ = 0 := by
  have hnever : ∀ p : Primitive, Editor.Op.unintern p.name ∉ moves := by
    intro p
    cases p <;> simp [moves, Primitive.name]
  have he : moved.shared.Named (.ofText "one\ntwo" none) := ⟨moves, rfl, hnever⟩
  have hroom : moved.shared.HasRoom := Editor.hasRoom_of_lt (by decide +kernel)
  obtain ⟨⟨hpoint, -, -, hmark⟩, ⟨hnumber, -, -, hunit, -⟩, ⟨hsize, htext, -, hline⟩, -, hkept,
    -⟩ := primitives_agree (rfl : unattended.host = Editor.interface) he hroom
  obtain ⟨-, -, hpins, -⟩ := hkept .point
  have hfive : moved.shared.buffer.point = 5 := by decide +kernel
  have hunset : moved.shared.buffer.mark = none := by decide +kernel
  have hseven : (moved.shared.buffer.pointMax : Int) - 1 = 7 := by decide +kernel
  have htwo : (moved.shared.buffer.lineNumberAt (UInt64.ofNat 5) : Int) = 2 := by decide +kernel
  have hzero : moved.shared.heap.pinCount ⟨3, 0⟩ = 0 := by decide +kernel
  have hpin := hpins ⟨3, 0⟩
  rw [hfive] at hnumber hline
  rw [hseven] at hsize
  rw [htwo] at hline
  rw [hzero] at hpin
  exact ⟨rfl, he, hroom, hpoint.trans hnumber, hnumber, hmark.trans (hunit hunset), hunit hunset,
    hsize, htext, hline, hpin⟩

end Guest.Running

end EditorScripting
