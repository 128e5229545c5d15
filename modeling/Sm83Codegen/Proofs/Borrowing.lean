import Sm83Codegen.Proofs.Dispatch

/-!
# What is not lent is left alone

A routine works on the parts of the machine that its call lends it. Whatever its fragment is, it
changes no other part.

* `Frame.Keeps` -- one frame has what another lends, and differs from it in that alone;
* `run_keeps` -- every statement keeps, and so does every program, by induction on it;
* `Routine.run_keeps`, `Operation.execute_keeps` -- and every routine and every operation.
-/

namespace Sm83Codegen

open Logged (bind_eq_ok)

/-! ## 1. Lending -/

/-- A frame lends a part of the machine, under whatever name. -/
def Frame.Lends (f : Frame) (x : Access) : Prop := ∃ b, (b, x) ∈ f.bindings

/-- A frame that lends no more than another, and differs from it in what is lent alone. -/
structure Frame.Keeps (f g : Frame) : Prop where
  flag : ∀ F, ¬f.Lends (.flag F) → g.cpu.flag F = f.cpu.flag F
  registers : ¬f.Lends .registers → g.cpu.registers = f.cpu.registers
  memory : ¬f.Lends (.memory true) → g.cpu.memory = f.cpu.memory
  pc : ¬f.Lends .pc → g.cpu.pc = f.cpu.pc
  lends : ∀ x, (∀ v, x ≠ .value v) → g.Lends x → f.Lends x

namespace Frame

variable {f g k : Frame} {b : Binding} {x : Access} {v : Value}

theorem Keeps.refl (f : Frame) : f.Keeps f :=
  ⟨fun _ _ => rfl, fun _ => rfl, fun _ => rfl, fun _ => rfl, fun _ _ h => h⟩

theorem Keeps.trans (h : f.Keeps g) (h' : g.Keeps k) : f.Keeps k where
  flag F hF := (h'.flag F fun hg => hF (h.lends _ (by simp) hg)).trans (h.flag F hF)
  registers hr := (h'.registers fun hg => hr (h.lends _ (by simp) hg)).trans (h.registers hr)
  memory hm := (h'.memory fun hg => hm (h.lends _ (by simp) hg)).trans (h.memory hm)
  pc hp := (h'.pc fun hg => hp (h.lends _ (by simp) hg)).trans (h.pc hp)
  lends x hx hk := h.lends x hx (h'.lends x hx hk)

theorem lends_of_access (h : f.access b = .ok x) : f.Lends x := by
  unfold access at h
  split at h
  · next p hp =>
    cases h
    exact ⟨p.1, List.mem_of_find?_eq_some hp⟩
  · cases h

theorem lends_of_needsRegisters (h : f.needsRegisters = .ok ()) : f.Lends .registers := by
  obtain ⟨x, hx, h⟩ := bind_eq_ok.mp h
  cases x with
  | registers => exact lends_of_access hx
  | value _ | pc | memory _ | flag _ => cases h

theorem lends_of_memoryView {m : Bool} (h : f.memoryView = .ok m) : f.Lends (.memory m) := by
  obtain ⟨x, hx, h⟩ := bind_eq_ok.mp h
  cases x with
  | memory n =>
    cases h
    exact lends_of_access hx
  | value _ | pc | registers | flag _ => cases h

/-- Binding a value lends nothing. -/
theorem keeps_bind (f : Frame) (b : Binding) (v : Value) : f.Keeps (f.bind b v) := by
  refine ⟨fun _ _ => rfl, fun _ => rfl, fun _ => rfl, fun _ => rfl, fun x hx h => ?_⟩
  obtain ⟨c, hc⟩ := h
  rcases List.mem_cons.mp hc with he | hc
  · exact absurd (congrArg Prod.snd he) (hx v)
  · exact ⟨c, hc⟩

theorem keeps_bindByte (f : Frame) (b : Option Binding) (n : Nat) : f.Keeps (f.bindByte b n) := by
  cases b with
  | none => exact Keeps.refl f
  | some b => exact keeps_bind f b _

theorem keeps_setFlag {F : Flag} (h : f.Lends (.flag F)) (t : Bool) :
    f.Keeps { f with cpu := f.cpu.setFlag F t } where
  flag G hG := Cpu.flag_setFlag_of_ne _ _ fun he => hG (he ▸ h)
  registers _ := by cases F <;> rfl
  memory _ := by cases F <;> rfl
  pc _ := by cases F <;> rfl
  lends _ _ h := h

theorem keeps_setPc (h : f.Lends .pc) (w : UInt16) :
    f.Keeps { f with cpu := { f.cpu with pc := w } } where
  flag _ _ := rfl
  registers _ := rfl
  memory _ := rfl
  pc hp := absurd h hp
  lends _ _ h := h

theorem keeps_setRegisters (h : f.Lends .registers) (r : Registers) :
    f.Keeps { f with cpu := { f.cpu with registers := r } } where
  flag _ _ := rfl
  registers hr := absurd h hr
  memory _ := rfl
  pc _ := rfl
  lends _ _ h := h

theorem keeps_store {a : Nat} {u : UInt8} (h : f.store a u = .ok g) : f.Keeps g := by
  unfold store at h
  obtain ⟨m, hm, h⟩ := bind_eq_ok.mp h
  cases m with
  | false => cases h
  | true =>
    have hl := lends_of_memoryView hm
    rw [if_pos rfl] at h
    split at h
    · cases h
      exact ⟨fun _ _ => rfl, fun _ => rfl, fun hm => absurd hl hm, fun _ => rfl, fun _ _ h => h⟩
    · cases h

end Frame

/-! ## 2. Running -/

open Sm83Codegen.Frame

section Running

variable {f g : Frame}

theorem write_keeps {p : Place} {v : Value} (h : p.write f v = .ok g) : f.Keeps g := by
  cases p with
  | named b =>
    rw [Place.write] at h
    obtain ⟨_, _, h⟩ := bind_eq_ok.mp h
    cases h
    exact keeps_bind f b v
  | deref b =>
    rw [Place.write] at h
    obtain ⟨x, hx, h⟩ := bind_eq_ok.mp h
    have hl := lends_of_access hx
    cases x with
    | pc =>
      obtain ⟨w, _, h⟩ := bind_eq_ok.mp h
      cases h
      exact keeps_setPc hl w
    | flag F =>
      obtain ⟨t, _, h⟩ := bind_eq_ok.mp h
      cases h
      exact keeps_setFlag hl t
    | value _ | registers | memory _ => cases h
  | register t =>
    rw [Place.write] at h
    obtain ⟨_, hn, h⟩ := bind_eq_ok.mp h
    obtain ⟨r, _, h⟩ := bind_eq_ok.mp h
    obtain ⟨u, _, h⟩ := bind_eq_ok.mp h
    cases h
    exact keeps_setRegisters (lends_of_needsRegisters hn) _
  | byteAt a =>
    rw [Place.write] at h
    obtain ⟨_, _, h⟩ := bind_eq_ok.mp h
    obtain ⟨_, _, h⟩ := bind_eq_ok.mp h
    obtain ⟨_, _, h⟩ := bind_eq_ok.mp h
    exact keeps_store h

/-- **A statement changes nothing but what is lent.** -/
theorem Statement.run_keeps {t : Statement} (h : t.run f = .ok g) : f.Keeps g := by
  cases t with
  | bind b e | bindMutable b e =>
    rw [Statement.run] at h
    obtain ⟨v, _, h⟩ := bind_eq_ok.mp h
    cases h
    exact keeps_bind f b v
  | drop e =>
    rw [Statement.run] at h
    obtain ⟨_, _, h⟩ := bind_eq_ok.mp h
    cases h
    exact Keeps.refl f
  | bindBytes low high e =>
    rw [Statement.run] at h
    obtain ⟨_, _, h⟩ := bind_eq_ok.mp h
    obtain ⟨_, _, h⟩ := bind_eq_ok.mp h
    cases h
    exact (keeps_bindByte f low _).trans (keeps_bindByte _ high _)
  | assign p e =>
    rw [Statement.run] at h
    obtain ⟨_, _, h⟩ := bind_eq_ok.mp h
    exact write_keeps h
  | update op p e =>
    rw [Statement.run] at h
    obtain ⟨_, _, h⟩ := bind_eq_ok.mp h
    obtain ⟨_, _, h⟩ := bind_eq_ok.mp h
    obtain ⟨_, _, h⟩ := bind_eq_ok.mp h
    exact write_keeps h
  | setPair t e =>
    rw [Statement.run] at h
    obtain ⟨_, _, h⟩ := bind_eq_ok.mp h
    obtain ⟨_, hn, h⟩ := bind_eq_ok.mp h
    obtain ⟨_, _, h⟩ := bind_eq_ok.mp h
    obtain ⟨_, _, h⟩ := bind_eq_ok.mp h
    cases h
    exact keeps_setRegisters (lends_of_needsRegisters hn) _

/-- **A program changes nothing but what is lent.** -/
theorem Program.run_keeps {p : Program} (h : p.run f = .ok g) : f.Keeps g := by
  induction p generalizing f g with
  | done =>
    cases h
    exact Keeps.refl f
  | blank rest ih => exact ih h
  | step t rest ih =>
    rw [Program.run] at h
    obtain ⟨k, hk, h⟩ := bind_eq_ok.mp h
    exact (Statement.run_keeps hk).trans (ih h)
  | choose c yes no rest ihYes ihNo ih =>
    rw [Program.run] at h
    obtain ⟨_, _, h⟩ := bind_eq_ok.mp h
    obtain ⟨b, _, h⟩ := bind_eq_ok.mp h
    cases b with
    | true =>
      obtain ⟨k, hk, h⟩ := bind_eq_ok.mp h
      exact (ihYes hk).trans (ih h)
    | false =>
      obtain ⟨k, hk, h⟩ := bind_eq_ok.mp h
      exact (ihNo hk).trans (ih h)

theorem Fragment.run_keeps {p : Fragment} (h : p.run f = .ok g) : f.Keeps g := by
  cases p with
  | program _ p => exact Program.run_keeps h
  | verbatim _ => cases h

theorem runUpdates_keeps {us : List FlagUpdate} (h : runUpdates f us = .ok g) : f.Keeps g := by
  induction us generalizing f with
  | nil =>
    cases h
    exact Keeps.refl _
  | cons u us ih =>
    rw [runUpdates] at h
    obtain ⟨k, hk, h⟩ := bind_eq_ok.mp h
    exact (Statement.run_keeps hk).trans (ih h)

/-- **A routine changes nothing but what is lent**, whether it branches or not. -/
theorem Routine.run_keeps {r : Routine} {taken : Bool} (h : r.run f = .ok (g, taken)) :
    f.Keeps g := by
  obtain ⟨moved, hmoved, _, h⟩ := Routine.run_eq_ok.mp h
  refine (Statement.run_keeps hmoved).trans ?_
  cases taken with
  | false =>
    rw [show g = moved from h]
    exact Keeps.refl _
  | true =>
    obtain ⟨made, hmade, hupdates⟩ := h
    exact (Fragment.run_keeps hmade).trans (runUpdates_keeps hupdates)

end Running

/-! ## 3. Operations -/

/-- What an argument lends, if it is no value. -/
theorem Argument.access_lends {s : Cpu} {c : Captures} {a : Argument} {x : Access}
    (h : a.access s c = .ok x) :
    (x = .pc → a = .pcBorrow) ∧ (x = .registers → a = .registersBorrow) ∧
      (∀ m, x = .memory m → a = .memoryView m) ∧ (∀ F, x = .flag F → a = .flagBorrow F) := by
  cases a with
  | pcBorrow | registersBorrow | memoryView m | literal v d | flagValue F | truth b
  | flagBorrow F =>
    cases h
    simp
  | reg8 name | reg16 name =>
    rw [Argument.access] at h
    split at h
    · cases h
      simp
    · cases h
  | immediateByte =>
    obtain ⟨_, _, h⟩ := bind_eq_ok.mp h
    cases h
    simp
  | immediateWord =>
    obtain ⟨_, _, h⟩ := bind_eq_ok.mp h
    obtain ⟨_, _, h⟩ := bind_eq_ok.mp h
    cases h
    simp

theorem mem_of_pass {s : Cpu} {c : Captures} {as : List (Binding × Argument)}
    {bs : List (Binding × Access)} (h : Operation.pass s c as = .ok bs) {p : Binding × Access}
    (hp : p ∈ bs) : ∃ a, (p.1, a) ∈ as ∧ a.access s c = .ok p.2 := by
  induction as generalizing bs with
  | nil =>
    cases h
    cases hp
  | cons q as ih =>
    rw [Operation.pass] at h
    obtain ⟨x, hx, h⟩ := bind_eq_ok.mp h
    obtain ⟨xs, hxs, h⟩ := bind_eq_ok.mp h
    cases h
    rcases List.mem_cons.mp hp with rfl | hp
    · exact ⟨q.2, List.mem_cons_self, hx⟩
    · obtain ⟨a, ha, hax⟩ := ih hxs hp
      exact ⟨a, List.mem_cons_of_mem _ ha, hax⟩

/-- An operation has an argument, under whatever name. -/
def Operation.Passes (o : Operation) (a : Argument) : Prop := ∃ b, (b, a) ∈ o.arguments

/-- **An operation changes nothing but what its arguments lend.** -/
theorem Operation.execute_keeps {o : Operation} {s t : Cpu} {c : Captures} {cycles : UInt8}
    (h : o.execute s c = .executed t cycles) :
    (∀ F, ¬o.Passes (.flagBorrow F) → t.flag F = s.flag F) ∧
      (¬o.Passes .registersBorrow → t.registers = s.registers) ∧
      (¬o.Passes (.memoryView true) → t.memory = s.memory) := by
  unfold Operation.execute at h
  split at h
  · next t' n hc =>
    cases h
    unfold Operation.call at hc
    obtain ⟨bs, hbs, hc⟩ := bind_eq_ok.mp hc
    obtain ⟨⟨g, taken⟩, hr, hc⟩ := bind_eq_ok.mp hc
    cases hc
    have hk := Routine.run_keeps hr
    have hlends : ∀ x, (⟨s, bs⟩ : Frame).Lends x → ∃ a, o.Passes a ∧ a.access s c = .ok x := by
      rintro x ⟨b, hb⟩
      obtain ⟨a, ha, hax⟩ := mem_of_pass hbs hb
      exact ⟨a, ⟨b, ha⟩, hax⟩
    refine ⟨fun F hF => hk.flag F fun hl => ?_, fun hn => hk.registers fun hl => ?_,
      fun hn => hk.memory fun hl => ?_⟩
    · obtain ⟨a, ha, hax⟩ := hlends _ hl
      exact hF ((Argument.access_lends hax).2.2.2 F rfl ▸ ha)
    · obtain ⟨a, ha, hax⟩ := hlends _ hl
      exact hn ((Argument.access_lends hax).2.1 rfl ▸ ha)
    · obtain ⟨a, ha, hax⟩ := hlends _ hl
      exact hn ((Argument.access_lends hax).2.2.1 true rfl ▸ ha)
  · cases h

end Sm83Codegen
