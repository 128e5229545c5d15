import Sm83Codegen.Convention

/-!
# Routines

The routine of a family: it advances the program counter, leaves if its condition fails, runs the
fragment and then sets the flags that the fragment does not manage.

* `FlagUpdate` -- the assignment of one flag after the fragment;
* `Descriptor.checkFlags` -- whether every computed flag can be computed, and by one means only;
* `Routine` -- a routine as data, and its written form.
-/

namespace Sm83Codegen

/-! ## 1. Flag updates -/

/-- The assignment of a flag after the fragment. -/
inductive FlagUpdate where
  | fixed (f : Flag) (value : Bool)
  /-- Set if the result is zero as a byte. -/
  | zero (f : Flag)
  /-- Set if there was a carry out of, or a borrow into, the bits below a width. -/
  | carry (f : Flag) (width : CarryWidth)
  deriving DecidableEq, Repr

/-- The type in which the carry out of a width still shows. -/
def CarryWidth.type : CarryWidth → IntType
  | bit4 | bit8 => .u16
  | bit12 | bit16 => .u32

/-- A carry into a bit, or a borrow from it, is a difference there between the result and the
    exclusive or of the operands. -/
def carryTest (w : CarryWidth) : Expr :=
  let part (b : Binding) : Expr := .group (.cast (.get b) w.type)
  .binary .different
    (.binary .and
      (.group (.binary .xor (.binary .xor (part .operand1) (part .operand2)) (part .result)))
      (.group (.binary .shiftLeft (.number w.type 1 .decimal) (.number .u8 w.bit .decimal))))
    (.number w.type 0 .decimal)

/-- Whether the result is zero as a byte. -/
def zeroTest : Expr :=
  .binary .equal (.group (.cast (.get .result) .u8)) (.number .u8 0 .decimal)

/-- The flag that an update assigns. -/
def FlagUpdate.flag : FlagUpdate → Flag
  | fixed f _ => f
  | zero f => f
  | carry f _ => f

/-- The value that an update assigns. -/
def FlagUpdate.value : FlagUpdate → Expr
  | fixed _ v => .truth v
  | zero _ => zeroTest
  | carry _ w => carryTest w

/-- An update as a statement. -/
def FlagUpdate.statement (u : FlagUpdate) : Statement := .assign (.deref (.flag u.flag)) u.value

namespace Descriptor

/-! ## 2. Checking flags -/

/-- A flag that cannot be produced as specified. -/
def violation (d : Descriptor) (f : Flag) (reason : String) : Except GenerationError Unit :=
  .error (.flagSpecViolation d.family.name f reason)

/-- Checks a declared carry width against the ones declared before it. -/
def checkWidth (d : Descriptor) (before : List (Flag × CarryWidth)) (f : Flag) :
    Except GenerationError Unit :=
  if f = .Z ∨ f = .N then d.violation f "carry width declared for a flag that has none"
  else if before.any (fun w => w.1 == f) then d.violation f "carry width declared twice"
  else if d.family.isSelfManaged f then
    d.violation f "carry width declared for a self-managed flag"
  else if !(d.flags.get f).isComputed then
    d.violation f "carry width declared for a flag the table does not compute"
  else .ok ()

/-- Checks the declared carry widths in order. -/
def checkWidths (d : Descriptor) :
    List (Flag × CarryWidth) → List (Flag × CarryWidth) → Except GenerationError Unit
  | _, [] => .ok ()
  | before, w :: rest => do
    d.checkWidth before w.1
    d.checkWidths (before ++ [w]) rest

/-- Checks that a computed flag has a means of being computed. -/
def checkComputed (d : Descriptor) (f : Flag) : Except GenerationError Unit :=
  if d.family.isSelfManaged f then .ok ()
  else
    match f, d.flags.get f with
    | .N, _ => d.violation f "computed, but not managed by the fragment"
    | .H, .computed none =>
      d.violation f "computed, with neither a carry width nor self-management"
    | .C, .computed none =>
      d.violation f "computed, with neither a carry width nor self-management"
    | _, _ => .ok ()

/-- Checks flags in order. -/
def checkAllComputed (d : Descriptor) : List Flag → Except GenerationError Unit
  | [] => .ok ()
  | f :: rest => do
    d.checkComputed f
    d.checkAllComputed rest

/-- Checks the declared carry widths, then the computed flags. -/
def checkFlags (d : Descriptor) : Except GenerationError Unit := do
  d.checkWidths [] d.family.carryWidths
  d.checkAllComputed d.flags.computed

/-! ## 3. The routine of a family -/

/-- The assignment of a flag, if the routine makes one. -/
def flagUpdate? (d : Descriptor) (f : Flag) : Option FlagUpdate :=
  match d.flags.get f with
  | .fixedFalse => some (.fixed f false)
  | .fixedTrue => some (.fixed f true)
  | .unaffected => none
  | .computed width =>
    if d.family.isSelfManaged f then none
    else
      match width with
      | none => some (.zero f)
      | some w => some (.carry f w)

/-- The assignments after the fragment, in the order of the flags. -/
def flagUpdates (d : Descriptor) : List FlagUpdate := Flag.all.filterMap d.flagUpdate?

end Descriptor

/-- A routine. -/
structure Routine where
  title : String
  aliased : Bool
  name : String
  parameters : List Parameter
  conditional : Bool
  length : UInt8
  fragment : Fragment
  updates : List FlagUpdate
  deriving DecidableEq, Repr

/-- The routine of a family. -/
def Descriptor.routine (d : Descriptor) : Routine where
  title := d.family.name
  aliased := d.aliased
  name := d.routineName
  parameters := d.parameters
  conditional := d.family.conditional
  length := d.length
  fragment := d.family.fragment
  updates := d.flagUpdates

namespace Routine

/-! ## 4. The written form -/

/-- The indentation of a routine. -/
def indent : Nat := 4

/-- Routines with more parameters than this carry an allowance for them. -/
def maxParameters : Nat := 7

/-- A line of a routine. -/
def line (text : String) : String := Text.indented indent text

/-- A line inside a routine. -/
def bodyLine (text : String) : String := Text.indented (indent + 4) text

/-- The comment above a routine. -/
def commentLines (r : Routine) : List String :=
  line ("/// " ++ r.title) ::
    (if r.aliased then
      [line "///", line "/// Some members name overlapping registers as both operands."]
    else [])

/-- The allowance for many parameters. -/
def allowanceLines (r : Routine) : List String :=
  if r.parameters.length > maxParameters then [line "#[allow(clippy::too_many_arguments)]"]
  else []

/-- The head of a routine. A conditional one reports whether it branched. -/
def headLines (r : Routine) : List String :=
  Text.listed indent ("fn " ++ r.name ++ "(") (r.parameters.map Parameter.text)
    (if r.conditional then ") -> bool \x7b" else ") \x7b")

/-- The early end of a conditional routine. -/
def conditionLines (r : Routine) : List String :=
  if r.conditional then
    ["", bodyLine "if condition_flag != flag_condition \x7b",
      Text.indented (indent + 8) "return false;", bodyLine "\x7d"]
  else []

/-- The fragment, after an empty line; a blank one leaves nothing. -/
def fragmentLines (r : Routine) : List String :=
  if (Text.trim r.fragment.text.toList).isEmpty then []
  else "" :: Text.reindented (indent + 4) r.fragment.text

/-- The assignments of the flags, after an empty line. -/
def updateLines (r : Routine) : List String :=
  if r.updates.isEmpty then [] else "" :: r.updates.map (fun u => bodyLine u.statement.text)

/-- The regular end of a conditional routine. -/
def outcomeLines (r : Routine) : List String := if r.conditional then ["", bodyLine "true"] else []

/-- The lines of a routine. -/
def lines (r : Routine) : List String :=
  r.commentLines ++ r.allowanceLines ++ r.headLines ++
    [bodyLine ("*pc = pc.wrapping_add(" ++ toString r.length.toNat ++ ");")] ++
    r.conditionLines ++ r.fragmentLines ++ r.updateLines ++ r.outcomeLines ++ [line "\x7d"]

/-- The text of a routine. -/
def text (r : Routine) : String := Text.textOf r.lines

end Routine

end Sm83Codegen
