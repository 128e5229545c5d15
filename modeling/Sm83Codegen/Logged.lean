import Sm83Codegen.GenerationError

/-!
# Computations that keep a log

A generation reports what it does while it runs, and may fail; what was reported before the
failure stays reported.

* `LogRecord` -- one report: how severe it is, which part of the program made it, its text;
* `Logged` -- a result or a fault, with the reports made on the way;
* `result_bind` -- the results alone form an ordinary `Except` computation, so a statement about
  what is generated never needs the log.
-/

namespace Sm83Codegen

/-! ## 1. Records -/

/-- How severe a report is, the most severe first. -/
inductive Severity where
  | error
  | warn
  | info
  | debug
  deriving DecidableEq, Repr

/-- The place of a severity, the most severe having the least. -/
def Severity.rank : Severity → Nat
  | error => 1
  | warn => 2
  | info => 3
  | debug => 4

/-- The part of the program that makes a report. -/
inductive Component where
  | operands
  | table
  | families
  | testCases
  | generation
  | output
  deriving DecidableEq, Repr

/-- One report. -/
structure LogRecord where
  severity : Severity
  component : Component
  text : String
  deriving DecidableEq, Repr

/-! ## 2. The computation -/

/-- A result or a fault, and the reports made until it was reached. -/
structure Logged (α : Type) where
  log : List LogRecord
  result : Except GenerationError α

namespace Logged

variable {α β γ : Type}

/-- A result without reports. -/
def done (a : α) : Logged α := ⟨[], .ok a⟩

/-- A fault without reports. -/
def fail (e : GenerationError) : Logged α := ⟨[], .error e⟩

/-- One report. -/
def note (severity : Severity) (component : Component) (text : String) : Logged Unit :=
  ⟨[⟨severity, component, text⟩], .ok ()⟩

/-- A result or a fault that nothing was reported about. -/
def lift (r : Except GenerationError α) : Logged α := ⟨[], r⟩

/-- The second computation runs on the result of the first, after its reports. -/
def next (m : Logged α) (f : α → Logged β) : Logged β :=
  match m.result with
  | .ok a => ⟨m.log ++ (f a).log, (f a).result⟩
  | .error e => ⟨m.log, .error e⟩

instance : Monad Logged where
  pure := done
  bind := next

/-! ## 3. The result alone -/

@[simp] theorem result_pure (a : α) : (pure a : Logged α).result = .ok a := rfl

@[simp] theorem result_fail (e : GenerationError) : (fail e : Logged α).result = .error e := rfl

@[simp] theorem result_lift (r : Except GenerationError α) : (lift r).result = r := rfl

@[simp] theorem result_note (s : Severity) (c : Component) (t : String) :
    (note s c t).result = .ok () := rfl

@[simp] theorem result_bind (m : Logged α) (f : α → Logged β) :
    (m >>= f).result = m.result >>= fun a => (f a).result := by
  show (next m f).result = _
  unfold next
  split
  · rename_i a h
    rw [h]
    rfl
  · rename_i e h
    rw [h]
    rfl

/-- A computation in two steps succeeds when both do. -/
theorem bind_eq_ok {ε : Type} {m : Except ε α} {f : α → Except ε β} {b : β} :
    m >>= f = .ok b ↔ ∃ a, m = .ok a ∧ f a = .ok b := by
  cases m with
  | error e =>
    constructor
    · intro h
      cases h
    · rintro ⟨a, h, _⟩
      cases h
  | ok a =>
    constructor
    · intro h
      exact ⟨a, rfl, h⟩
    · rintro ⟨a', h, h'⟩
      cases h
      exact h'

/-- A check and what follows it succeed when both do. -/
theorem check_bind_eq_ok {ε : Type} {m : Except ε Unit} {f : Unit → Except ε β} {b : β} :
    m >>= f = .ok b ↔ m = .ok () ∧ f () = .ok b :=
  bind_eq_ok.trans ⟨fun ⟨_, h, h'⟩ => ⟨h, h'⟩, fun ⟨h, h'⟩ => ⟨(), h, h'⟩⟩

/-- A computation behind a guard succeeds when it is let through and does. -/
theorem guard_eq_ok {ε : Type} {c : Prop} [Decidable c] {e : ε} {m : Except ε α} {a : α} :
    (if c then .error e else m) = .ok a ↔ ¬c ∧ m = .ok a := by
  split
  · next h => exact ⟨nofun, fun hm => absurd h hm.1⟩
  · next h => exact (and_iff_right h).symm

/-- A computation in two steps fails when the first does, or the second. -/
theorem bind_eq_error {m : Except GenerationError α} {f : α → Except GenerationError β}
    {e : GenerationError} :
    m >>= f = .error e ↔ m = .error e ∨ ∃ a, m = .ok a ∧ f a = .error e := by
  cases m with
  | error e' =>
    constructor
    · intro h
      cases h
      exact .inl rfl
    · rintro (h | ⟨a, h, _⟩)
      · cases h
        rfl
      · cases h
  | ok a =>
    constructor
    · intro h
      exact .inr ⟨a, rfl, h⟩
    · rintro (h | ⟨a', h, h'⟩)
      · cases h
      · cases h
        exact h'

theorem next_done (m : Logged α) : next m done = m := by
  unfold next done
  split <;> rename_i h <;> cases m <;> simp_all

theorem done_next (a : α) (f : α → Logged β) : next (done a) f = f a := by
  simp [next, done]

theorem next_next (m : Logged α) (f : α → Logged β) (g : β → Logged γ) :
    next (next m f) g = next m (fun a => next (f a) g) := by
  unfold next
  cases m.result with
  | error e => rfl
  | ok a =>
    cases h : (f a).result with
    | error e => simp [h]
    | ok b => simp [h]

instance : LawfulMonad Logged :=
  LawfulMonad.mk' Logged (fun m => next_done m) (fun a f => done_next a f)
    (fun m f g => next_next m f g)

/-! ## 4. Lists -/

/-- Runs a computation on each element in turn and collects the results. -/
def collect (f : α → Logged β) : List α → Logged (List β)
  | [] => pure []
  | a :: as => do
    let b ← f a
    let bs ← collect f as
    pure (b :: bs)

@[simp] theorem collect_nil (f : α → Logged β) : collect f [] = pure [] := rfl

theorem collect_cons (f : α → Logged β) (a : α) (as : List α) :
    collect f (a :: as) = (do
      let b ← f a
      let bs ← collect f as
      pure (b :: bs)) := rfl

/-- A list is collected when every element gives a result. -/
theorem collect_eq_ok {f : α → Logged β} {as : List α} {bs : List β} :
    (collect f as).result = .ok bs ↔ as.map (fun a => (f a).result) = bs.map .ok := by
  induction as generalizing bs with
  | nil =>
    cases bs with
    | nil => simp
    | cons b bs => simp
  | cons a as ih =>
    rw [collect_cons, result_bind, bind_eq_ok]
    constructor
    · rintro ⟨b, hb, h⟩
      rw [result_bind, bind_eq_ok] at h
      obtain ⟨bs', hbs, h⟩ := h
      cases h
      rw [List.map_cons, List.map_cons, hb, ih.mp hbs]
    · intro h
      cases bs with
      | nil => cases h
      | cons b bs =>
        rw [List.map_cons, List.map_cons] at h
        obtain ⟨hb, hbs⟩ := List.cons.inj h
        refine ⟨b, hb, ?_⟩
        rw [result_bind, bind_eq_ok]
        exact ⟨bs, ih.mpr hbs, rfl⟩

/-- What a computation keeps of each element, collecting keeps of the list. -/
theorem map_eq_of_collect {f : α → Logged β} {g : β → γ} {k : α → γ}
    (hf : ∀ a b, (f a).result = .ok b → g b = k a) {as : List α} {bs : List β}
    (h : (collect f as).result = .ok bs) : bs.map g = as.map k := by
  have hm := collect_eq_ok.mp h
  clear h
  induction as generalizing bs with
  | nil =>
    cases bs with
    | nil => rfl
    | cons b bs => cases hm
  | cons a as ih =>
    cases bs with
    | nil => cases hm
    | cons b bs =>
      obtain ⟨hb, hbs⟩ := List.cons.inj hm
      rw [List.map_cons, List.map_cons, hf a b hb, ih hbs]

end Logged

end Sm83Codegen
