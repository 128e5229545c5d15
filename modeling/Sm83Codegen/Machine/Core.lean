import Sm83Codegen.Catalog
import Sm83Codegen.Generate
import Sm83Codegen.InstructionSet
import Sm83Codegen.Machine.Evaluate

/-!
# The generated core

A machine whose decoder is the generated branches and whose instructions are the generated
routines.

* `PatternItem` matching -- which branch an instruction selects, and what it binds;
* `Routine.run` -- what a routine does once it is called;
* `Core.decodeExecute` -- one instruction: the first branch that matches is called;
* `sm83` -- the core of the instruction set and the whole catalog.
-/

namespace Sm83Codegen

/-! ## 1. Matching -/

/-- The bytes that a pattern binds. -/
structure Captures where
  immediate : Option UInt8 := none
  low : Option UInt8 := none
  high : Option UInt8 := none
  deriving DecidableEq, Repr

/-- Matches a byte. -/
def PatternItem.match? (c : Captures) (b : UInt8) : PatternItem → Option Captures
  | byte x => if x = b then some c else none
  | immediate => some { c with immediate := some b }
  | immediateLow => some { c with low := some b }
  | immediateHigh => some { c with high := some b }

/-- Matches exactly the bytes of a pattern. -/
def matchPattern (c : Captures) : List PatternItem → List UInt8 → Option Captures
  | [], [] => some c
  | p :: ps, b :: bs =>
    match p.match? c b with
    | some c => matchPattern c ps bs
    | none => none
  | _, _ => none

/-! ## 2. Calling -/

/-- A captured byte, which has to be there. -/
def captured (b : Option UInt8) : Run UInt8 :=
  match b with
  | some b => .ok b
  | none => .error .mistyped

/-- What an argument passes. -/
def Argument.access (s : Cpu) (c : Captures) : Argument → Run Access
  | pcBorrow => .ok .pc
  | registersBorrow => .ok .registers
  | memoryView mutable => .ok (.memory mutable)
  | reg8 name =>
    match Reg8.ofName? name with
    | some r => .ok (.value (.reg8 r))
    | none => .error .mistyped
  | reg16 name =>
    match Reg16.ofName? name with
    | some r => .ok (.value (.reg16 r))
    | none => .error .mistyped
  | immediateByte => do
    let b ← captured c.immediate
    .ok (.value (.number .u8 b.toNat))
  | immediateWord => do
    let l ← captured c.low
    let h ← captured c.high
    .ok (.value (.number .u16 (256 * h.toNat + l.toNat)))
  | literal v _ => .ok (.value (.number .u8 v.toNat))
  | flagValue f => .ok (.value (.truth (s.flag f)))
  | truth b => .ok (.value (.truth b))
  | flagBorrow f => .ok (.flag f)

/-- Whether a parameter takes what is passed. -/
def ParameterType.accepts : ParameterType → Access → Bool
  | pcBorrow, .pc => true
  | registersBorrow, .registers => true
  | memoryView m, .memory n => m == n
  | reg8, .value (.reg8 _) => true
  | reg16, .value (.reg16 _) => true
  | byte, .value (.number .u8 _) => true
  | word, .value (.number .u16 _) => true
  | truth, .value (.truth _) => true
  | flagBorrow, .flag _ => true
  | _, _ => false

/-- The bindings of a call: each parameter with what is passed for it. -/
def bindArguments (s : Cpu) (c : Captures) (name : String) :
    List Parameter → List Argument → Run (List (Binding × Access))
  | [], [] => .ok []
  | p :: ps, a :: as => do
    let x ← a.access s c
    if p.type.accepts x then
      let rest ← bindArguments s c name ps as
      .ok ((p.binding, x) :: rest)
    else .error (.miscalled name)
  | _, _ => .error (.miscalled name)

/-! ## 3. Routines -/

/-- The assignments of flags, in order. -/
def runUpdates (s : Frame) : List FlagUpdate → Run Frame
  | [] => .ok s
  | u :: us => do
    let s ← u.statement.run s
    runUpdates s us

/-- Whether a routine branches: a conditional one if its flag has the value it asks for, any other
    one always. -/
def Routine.branches (r : Routine) (s : Frame) : Run Bool :=
  if r.conditional then do
    let v ← (Expr.binary .different (.get .conditionFlag) (.get .flagCondition)).eval s
    let differs ← v.truthOf
    .ok !differs
  else .ok true

/-- The program counter moved past the instruction. -/
def advanced (s : Frame) (length : UInt8) : Run Frame :=
  (Statement.assign (.deref .pc)
    (.wrappingAdd (.through .pc) (.number .u16 length.toNat .decimal))).run s

/-- The state after a routine, and whether it branched. A routine that does not branch only
    advances the program counter. -/
def Routine.run (r : Routine) (s : Frame) : Run (Frame × Bool) := do
  let s ← advanced s r.length
  match ← r.branches s with
  | false => .ok (s, false)
  | true =>
    let s ← r.fragment.run s
    let s ← runUpdates s r.updates
    .ok (s, true)

open Logged (bind_eq_ok) in
/-- A routine moves past its instruction and asks its condition; if it branches, it runs its fragment
    and then its updates. -/
theorem Routine.run_eq_ok {r : Routine} {s t : Frame} {taken : Bool} :
    r.run s = .ok (t, taken) ↔ ∃ moved, advanced s r.length = .ok moved ∧
      r.branches moved = .ok taken ∧
      if taken then ∃ made, r.fragment.run moved = .ok made ∧ runUpdates made r.updates = .ok t
      else t = moved := by
  unfold Routine.run
  rw [bind_eq_ok]
  refine exists_congr fun moved => and_congr_right fun _ => ?_
  rw [bind_eq_ok]
  constructor
  · intro h
    obtain ⟨b, hb, h⟩ := h
    cases b with
    | false =>
      cases h
      exact ⟨hb, rfl⟩
    | true =>
      obtain ⟨made, hmade, h⟩ := bind_eq_ok.mp h
      obtain ⟨_, hupdates, h⟩ := bind_eq_ok.mp h
      cases h
      exact ⟨hb, made, hmade, hupdates⟩
  · intro h
    obtain ⟨hb, h⟩ := h
    refine ⟨taken, hb, ?_⟩
    cases taken with
    | false =>
      cases h
      rfl
    | true =>
      obtain ⟨made, hmade, hupdates⟩ := h
      exact bind_eq_ok.mpr ⟨made, hmade, bind_eq_ok.mpr ⟨t, hupdates, rfl⟩⟩

/-! ## 4. The core -/

/-- A decoder and its routines. -/
structure Core where
  branches : List Branch
  routines : List Routine

/-- How an instruction ends: with the cycles it took; in a fault of its routine; or without a
    branch that matches it. -/
inductive Outcome where
  | executed (s : Cpu) (cycles : UInt8)
  | faulted (fault : MachineFault)
  | undecoded (bytes : List UInt8)

/-- The state after an instruction that began in a state. Only an executed one changes it. -/
def Outcome.state (s : Cpu) : Outcome → Cpu
  | executed t _ => t
  | faulted _ => s
  | undecoded _ => s

namespace Core

/-- The core that is generated for descriptors. -/
def ofDescriptors (ds : List Descriptor) : Core :=
  ⟨ds.flatMap (fun d => d.members.map d.branch), ds.map Descriptor.routine⟩

/-- The branch that an instruction selects, and what it binds. -/
def select (core : Core) (bytes : List UInt8) : Option (Branch × Captures) :=
  core.branches.findSome? (fun b => (matchPattern {} b.pattern bytes).map (fun c => (b, c)))

/-- Calls the routine of a branch. -/
def callBranch (core : Core) (s : Cpu) (b : Branch) (c : Captures) : Run (Cpu × UInt8) :=
  match core.routines.find? (fun r => r.name == b.routine) with
  | none => .error (.missingRoutine b.routine)
  | some r => do
    let bindings ← bindArguments s c r.name r.parameters b.arguments
    let (frame, taken) ← r.run ⟨s, bindings⟩
    .ok (frame.cpu, b.cycles taken)

/-- Executes one complete instruction. -/
def decodeExecute (core : Core) (s : Cpu) (bytes : List UInt8) : Outcome :=
  match core.select bytes with
  | none => .undecoded bytes
  | some (b, c) =>
    match core.callBranch s b c with
    | .ok (t, cycles) => .executed t cycles
    | .error fault => .faulted fault

end Core

/-- The descriptors of a document and a catalog. -/
def descriptorsOfDocument (document : TableDocument) (catalog : List Family) :
    Except GenerationError (List Descriptor) := do
  let t ← Table.ofDocument document
  let t ← ClaimedTable.assign catalog t
  (descriptorsOf t catalog).result

/-- The core of a document and a catalog; without branches if they do not go together. -/
def coreOf (document : TableDocument) (catalog : List Family) : Core :=
  match descriptorsOfDocument document catalog with
  | .ok ds => Core.ofDescriptors ds
  | .error _ => ⟨[], []⟩

/-- The core of the SM83. -/
def sm83 : Core := coreOf instructionSet catalog

/-- The report on an instruction that no branch matches. -/
def undecodedMessage (bytes : List UInt8) : String :=
  "not implemented: no decoding for [" ++ Text.commaSeparated (bytes.map Text.hexByte) ++ "]"

end Sm83Codegen
