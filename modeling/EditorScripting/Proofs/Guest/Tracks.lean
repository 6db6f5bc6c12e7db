import EditorScripting.Guest.Run
import EditorScripting.Proofs.Bridge.Tracks
import EditorScripting.Proofs.Script.Visits

/-!
Which wrappers exist while guest code runs: those of the dictionary, those that the guest holds, and
all others.
-/
namespace EditorScripting.Guest

open Host Script

variable {σ : Type}

/-- Neither the host nor what happens elsewhere changes which wrappers exist but by pins and unpins
of the host. -/
structure Surroundings.Tracks (around : Surroundings σ) (B : Multiset Handle → σ → Prop) :
    Prop where
  host : around.host.Tracks B
  meanwhile : ∀ {m s}, B m s → B m (around.meanwhile s)

namespace Running

/-- The wrappers that exist besides the others `m`: those of the dictionary and of the guest. -/
def Accounts (B : Multiset Handle → σ → Prop) (m : Multiset Handle) (r : Running σ) : Prop :=
  B (r.bridge.dictionary.handles + (r.held + m)) r.shared

section

variable {around : Surroundings σ} {B : Multiset Handle → σ → Prop} (ht : around.Tracks B)
  {m : Multiset Handle} {r : Running σ}
include ht

theorem accounts_step (limit : Nat) (hr : r.Accounts B m) :
    (r.step around limit).2.Accounts B m := by
  unfold step
  dsimp only
  split
  · exact hr
  · exact ht.meanwhile hr

theorem accounts_probe (limit ahead : Nat) (hr : r.Accounts B m) :
    (r.probe around limit ahead).2.Accounts B m := by
  unfold probe
  split
  · exact hr
  · exact ht.meanwhile hr

omit ht in
/-- A wrapper exists that the guest did not hold until now. -/
theorem accounts_hold {h : Handle} {s : σ}
    (hb : B (h ::ₘ (r.bridge.dictionary.handles + (r.held + m))) s) :
    (({ r with shared := s } : Running σ).hold h).Accounts B m := by
  unfold Accounts hold
  rw [← Multiset.cons_coe, Multiset.cons_add, Multiset.add_cons]
  exact hb

theorem accounts_give {h : Handle} (hr : r.Accounts B m)
    (hm : h ∈ (r.bridge.dictionary.handles + (r.held + m) : Multiset Handle)) :
    (r.give around h).Accounts B m := accounts_hold (ht.host.copy h hr hm)

theorem accounts_retain (h : Handle) (hr : r.Accounts B m) :
    (r.retain around h).Accounts B m := by
  unfold retain
  split
  · rename_i hm
    exact accounts_give ht hr (by simp [hm])
  · exact hr

theorem accounts_release (h : Handle) (hr : r.Accounts B m) :
    (r.release around h).Accounts B m := by
  unfold release
  split
  · rename_i hm
    have hheld : (r.held : Multiset Handle) = h ::ₘ r.held.erase h :=
      Multiset.coe_eq_coe.mpr (List.perm_cons_erase hm)
    unfold Accounts at hr
    rw [hheld, Multiset.cons_add, Multiset.add_cons] at hr
    exact ht.host.unpin h hr
  · exact hr

theorem accounts_gives {hs : List Handle} (hr : r.Accounts B m)
    (hm : ∀ h ∈ hs, h ∈ (r.bridge.dictionary.handles + m : Multiset Handle)) :
    (hs.foldl (fun r h => r.give around h) r).Accounts B m := by
  induction hs generalizing r with
  | nil => exact hr
  | cons h hs ih =>
    have hfirst : h ∈ (r.bridge.dictionary.handles + (r.held + m) : Multiset Handle) := by
      have hh := hm h (by simp)
      simp only [Multiset.mem_add] at hh ⊢
      tauto
    exact ih (accounts_give ht hr hfirst) fun g hg => hm g (by simp [hg])

theorem accounts_perform (c : Command) (hr : r.Accounts B m) :
    (r.perform around c).2.Accounts B m := by
  cases c with
  | point => exact ht.host.point hr
  | gotoChar n => exact ht.host.gotoChar n hr
  | setMark n => exact ht.host.setMark n hr
  | refresh =>
    have hrefresh := Bridge.tracks_refresh ht.host hr
    rw [add_left_comm] at hrefresh
    exact Report.tracks_drop ht.host.new hrefresh
  | symbols =>
    have hgives : Accounts B m (r.bridge.dictionary.handles.foldl (fun r h => r.give around h) r) :=
      accounts_gives ht hr fun h hh => by simp [hh]
    rw [Dictionary.handles, List.foldl_map] at hgives
    exact hgives
  | symbol name =>
    unfold perform
    dsimp only
    split
    · rename_i h hd
      exact accounts_give ht hr (by simp [Dictionary.mem_handles_of_find? hd])
    · exact hr
  | wrap name =>
    have hpin := ht.host.pin (around.host.intern name r.shared).1 (ht.host.intern name hr)
    unfold perform Wrapper.new
    dsimp only
    split <;> rename_i hp <;> rw [hp] at hpin
    · exact accounts_hold hpin
    · exact hpin
  | invoke h =>
    have hinvoke := Wrapper.tracks_invoke ht.host h hr
    unfold perform
    dsimp only
    split <;> rename_i hi <;> rw [hi] at hinvoke
    case h_4 => exact accounts_hold hinvoke
    all_goals
      simp only [Marshalled.handles, Multiset.coe_nil, zero_add] at hinvoke
      exact hinvoke
  | _ => exact hr

/-- Whatever guest code asks for, the account stays right. -/
theorem keeps_accounts (limit : Nat) : (world around limit).Keeps (Accounts B m) where
  step _ := accounts_step ht limit
  probe n _ := accounts_probe ht limit n
  retain h _ := accounts_retain ht h
  release h _ := accounts_release ht h
  ask c _ hr := accounts_perform ht c (ht.meanwhile hr)

end

end Running

end EditorScripting.Guest
