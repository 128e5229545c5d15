/-!
# Status flags

The four status flags of the SM83 and what an instruction does to them.

* `Flag` -- Z, N, H and C, in the order of the high bits of register F;
* `CarryWidth` -- the bit position at which a carry or a borrow is tested;
* `FlagEffect` -- how one instruction treats one flag, with the notation of the opcode table;
* `FlagEffects` -- the treatment of all four.
-/

namespace Sm83Codegen

/-! ## 1. Flags -/

/-- A status flag: zero, subtraction, half carry, carry. -/
inductive Flag where
  | Z
  | N
  | H
  | C
  deriving DecidableEq, Repr

namespace Flag

/-- The flags from the highest bit of register F downwards. -/
def all : List Flag := [Z, N, H, C]

/-- The place of a flag in `all`. -/
def index : Flag → Nat
  | Z => 0
  | N => 1
  | H => 2
  | C => 3

/-- The letter the opcode table uses for a flag. -/
def letter : Flag → Char
  | Z => 'Z'
  | N => 'N'
  | H => 'H'
  | C => 'C'

/-- The small form of the letter. -/
def smallLetter : Flag → Char
  | Z => 'z'
  | N => 'n'
  | H => 'h'
  | C => 'c'

/-- The letter as text. -/
def name (f : Flag) : String := String.singleton f.letter

/-- The name of the processor field, and of the routine parameter, that holds a flag. -/
def field : Flag → String
  | Z => "zf"
  | N => "nf"
  | H => "hf"
  | C => "cf"

theorem mem_all (f : Flag) : f ∈ all := by cases f <;> simp [all]

end Flag

/-! ## 2. Carry widths -/

/-- The bit position at which a carry out of an addition, or a borrow into a subtraction, shows. -/
inductive CarryWidth where
  | bit4
  | bit8
  | bit12
  | bit16
  deriving DecidableEq, Repr

namespace CarryWidth

/-- The bit position. -/
def bit : CarryWidth → Nat
  | bit4 => 4
  | bit8 => 8
  | bit12 => 12
  | bit16 => 16

/-- The width that tests a bit position, if there is one. -/
def ofBit? : Nat → Option CarryWidth
  | 4 => some bit4
  | 8 => some bit8
  | 12 => some bit12
  | 16 => some bit16
  | _ => none

end CarryWidth

/-! ## 3. Effects -/

/-- What an instruction does to a flag. A computed flag may know the width of its carry test. -/
inductive FlagEffect where
  | fixedFalse
  | fixedTrue
  | unaffected
  | computed (width : Option CarryWidth)
  deriving DecidableEq, Repr

namespace FlagEffect

/-- The value of a fixed flag. -/
def fixedValue : FlagEffect → Option Bool
  | fixedFalse => some false
  | fixedTrue => some true
  | _ => none

/-- Whether the flag depends on the operands. -/
def isComputed : FlagEffect → Bool
  | computed _ => true
  | _ => false

end FlagEffect

/-! ## 4. The effects of one instruction -/

/-- The effect of an instruction on each flag; a flag left out is unaffected. -/
structure FlagEffects where
  z : FlagEffect := .unaffected
  n : FlagEffect := .unaffected
  h : FlagEffect := .unaffected
  c : FlagEffect := .unaffected
  deriving DecidableEq, Repr

namespace FlagEffects

/-- The effect on a flag. -/
def get (e : FlagEffects) : Flag → FlagEffect
  | .Z => e.z
  | .N => e.n
  | .H => e.h
  | .C => e.c

/-- The effects with the one on a flag replaced. -/
def set (e : FlagEffects) (f : Flag) (effect : FlagEffect) : FlagEffects :=
  match f with
  | .Z => { e with z := effect }
  | .N => { e with n := effect }
  | .H => { e with h := effect }
  | .C => { e with c := effect }

/-- The flags that depend on the operands, in order. -/
def computed (e : FlagEffects) : List Flag := Flag.all.filter (fun f => (e.get f).isComputed)

/-- The flags with a fixed value and that value, in order. -/
def fixed (e : FlagEffects) : List (Flag × Bool) :=
  Flag.all.filterMap (fun f => (e.get f).fixedValue.map (fun v => (f, v)))

/-- A character a flag, as in `Z0HC`. -/
def display (e : FlagEffects) : String :=
  String.ofList (Flag.all.map (fun f =>
    match e.get f with
    | .fixedFalse => '0'
    | .fixedTrue => '1'
    | .unaffected => '-'
    | .computed _ => f.letter))

@[simp] theorem get_set_self (e : FlagEffects) (f : Flag) (x : FlagEffect) :
    (e.set f x).get f = x := by
  cases f <;> rfl

theorem get_set_of_ne (e : FlagEffects) {f g : Flag} (x : FlagEffect) (h : g ≠ f) :
    (e.set f x).get g = e.get g := by
  cases f <;> cases g <;> first | rfl | exact absurd rfl h

theorem mem_computed {e : FlagEffects} {f : Flag} :
    f ∈ e.computed ↔ (e.get f).isComputed = true := by
  simp [computed, Flag.mem_all]

end FlagEffects

end Sm83Codegen
