import Sm83Codegen.Proofs.Carries

/-!
# Evaluation, one construct at a time

What each construct of the fragment language does, as one lemma: from what its parts evaluate to, to
what it evaluates to. Bytes and words stay bytes and words, so that no lemma asks for a bound, and
running a fragment is a chain of these lemmas.

* `eval_…` -- expressions;
* `run_…` -- statements, programs and the updates of the flags;
* `Fragment.Makes` -- a fragment with its updates, by the state it leads to;
* `execute_plain`, `execute_branching` -- whole operations;
* `executes_plain`, `executes_conditional` -- instructions.
-/

namespace Sm83Codegen

/-! ## 1. Values -/

/-- A byte as a value. -/
abbrev Value.byte (v : UInt8) : Value := .number .u8 v.toNat

/-- A word as a value. -/
abbrev Value.word (w : UInt16) : Value := .number .u16 w.toNat

/-- A word as an address of memory. -/
abbrev Value.place (w : UInt16) : Value := .number .usize w.toNat

theorem Memory.get?_toNat (m : Memory) (a : UInt16) : m.get? a.toNat = some (m.at16 a) :=
  Vector.getElem?_eq_getElem a.toNat_lt

theorem Memory.set?_toNat (m : Memory) (a : UInt16) (v : UInt8) :
    m.set? a.toNat v = some (m.put a v) := dif_pos a.toNat_lt

theorem wordOf_toNat (h l : UInt8) : (wordOf h l).toNat = 256 * h.toNat + l.toNat := by
  have hh := h.toNat_lt
  have hl := l.toNat_lt
  rw [wordOf, UInt16.toNat_ofNat_of_lt' (by rw [UInt16.size]; omega)]

theorem lowByte_toNat (w : UInt16) : (lowByte w).toNat = w.toNat % 256 := by
  rw [lowByte, UInt8.toNat_ofNat_of_lt' (Nat.mod_lt _ (by decide))]

theorem highByte_toNat (w : UInt16) : (highByte w).toNat = w.toNat / 256 := by
  have hw := w.toNat_lt
  rw [highByte, UInt8.toNat_ofNat_of_lt' (by rw [UInt8.size]; omega)]

theorem highByte_wordOf (h l : UInt8) : highByte (wordOf h l) = h := by
  have hl := l.toNat_lt
  apply UInt8.toNat_inj.mp
  rw [highByte_toNat, wordOf_toNat]
  omega

theorem combine_and (a b : UInt8) : (Value.byte a).combine .and (.byte b) = .ok (.byte (a &&& b)) :=
  congrArg (fun n => Except.ok (Value.number .u8 n)) (UInt8.toNat_and a b).symm

theorem combine_or (a b : UInt8) : (Value.byte a).combine .or (.byte b) = .ok (.byte (a ||| b)) :=
  congrArg (fun n => Except.ok (Value.number .u8 n)) (UInt8.toNat_or a b).symm

theorem combine_xor (a b : UInt8) : (Value.byte a).combine .xor (.byte b) = .ok (.byte (a ^^^ b)) :=
  congrArg (fun n => Except.ok (Value.number .u8 n)) (UInt8.toNat_xor a b).symm

theorem IntType.size_eq (t : IntType) : t.size = 2 ^ t.width := by
  rw [IntType.size, Nat.shiftLeft_eq, Nat.one_mul]

/-- A number moved up by fewer bits than its width. -/
theorem combine_shiftLeft {t u : IntType} {m n : Nat} (hn : n < t.width) :
    (Value.number t m).combine .shiftLeft (.number u n) =
      .ok (.number t (m * 2 ^ n % t.size)) := by
  show Value.shift true t m n = _
  unfold Value.shift
  rw [if_pos hn, if_pos rfl, Nat.shiftLeft_eq]

/-- A number moved down by fewer bits than its width. -/
theorem combine_shiftRight {t u : IntType} {m n : Nat} (hn : n < t.width) :
    (Value.number t m).combine .shiftRight (.number u n) = .ok (.number t (m / 2 ^ n)) := by
  show Value.shift false t m n = _
  unfold Value.shift
  rw [if_pos hn, if_neg (by decide), Nat.shiftRight_eq_div_pow]

/-- A number that has no sign is cut to the width of another type. -/
theorem cast_unsigned {t u : IntType} (ht : t.signed = false) (n : Nat) :
    (Value.number t n).cast u = .ok (.number u (n % u.size)) := by
  rw [Value.cast, ht]
  rfl

/-- The low byte of a number, whatever its type: a sign fills no bit of it. -/
theorem cast_byte (t : IntType) (n : Nat) :
    (Value.number t n).cast .u8 = .ok (.number .u8 (n % 256)) := by
  have hfill : ∀ k, (n + 256 * k) % 256 = n % 256 := Nat.add_mul_mod_self_left n 256
  cases t with
  | u8 | u16 | u32 | usize => exact cast_unsigned rfl n
  | i8 =>
    rw [Value.cast]
    split
    · exact congrArg (fun m => Except.ok (Value.number .u8 m)) (hfill 255)
    · rfl
  | i16 =>
    rw [Value.cast]
    split
    · exact congrArg (fun m => Except.ok (Value.number .u8 m)) (hfill (256 * 255))
    · rfl

/-- The bits of a number that are below the widths of both types outlast a cast; a number without a
    sign has no bits beyond its type. -/
theorem exists_cast (t u : IntType) (n : Nat) : ∃ m, (Value.number t n).cast u = .ok (.number u m) ∧
    ∀ k < u.width, (t.signed = true → k < t.width) → m.testBit k = n.testBit k := by
  by_cases hneg : (t.signed && decide (t.size ≤ 2 * n)) = true
  · refine ⟨(n + t.size * (u.size - 1)) % u.size, by simp [Value.cast, hneg], ?_⟩
    intro k hk hsign
    have hkt : k < t.width := hsign (Bool.and_eq_true_iff.mp hneg).1
    -- the sign fills the bits from the width of the type upwards
    have hfill : (n + t.size * (u.size - 1)) % 2 ^ t.width = n % 2 ^ t.width := by
      rw [IntType.size_eq t, Nat.add_mul_mod_self_left]
    have hbit := congrArg (fun m => m.testBit k) hfill
    simp only [Nat.testBit_mod_two_pow, hkt, decide_true, Bool.true_and] at hbit
    rw [IntType.size_eq u, Nat.testBit_mod_two_pow, decide_eq_true hk, Bool.true_and,
      ← IntType.size_eq u, hbit]
  · refine ⟨n % u.size, by simp [Value.cast, hneg], ?_⟩
    intro k hk _
    rw [IntType.size_eq, Nat.testBit_mod_two_pow, decide_eq_true hk, Bool.true_and]

/-! ## 2. Expressions -/

section Expressions

variable {f : Frame} {e l r : Expr} {u v : UInt8} {w x : UInt16}

theorem eval_register {t : RegisterTerm} {R : Reg8} (hn : f.needsRegisters = .ok ())
    (ht : f.reg8 t = .ok R) : (Expr.register t).eval f = .ok (.byte (f.cpu.get8 R)) := by
  show (f.needsRegisters >>= fun _ => f.reg8 t >>= fun R => .ok (Value.byte (f.cpu.get8 R))) = _
  rw [hn, ht]
  rfl

theorem eval_pair {t : RegisterTerm} {p : Reg16} (hn : f.needsRegisters = .ok ())
    (ht : f.reg16 t = .ok p) : (Expr.pair t).eval f = .ok (.word (f.cpu.get16 p)) := by
  show (f.needsRegisters >>= fun _ => f.reg16 t >>= fun p => .ok (Value.word (f.cpu.get16 p))) = _
  rw [hn, ht]
  rfl

/-- A flag, read through its borrow. -/
theorem eval_borrowed {F : Flag} (ha : f.access (.flag F) = .ok (.flag F)) :
    (Catalog.borrowed F).eval f = .ok (.truth (f.cpu.flag F)) := by
  show f.behind (.flag F) = _
  unfold Frame.behind
  rw [ha]
  rfl

/-- The program counter, read through its borrow. -/
theorem eval_through (ha : f.access .pc = .ok .pc) :
    (Expr.through .pc).eval f = .ok (.word f.cpu.pc) := by
  show f.behind .pc = _
  unfold Frame.behind
  rw [ha]
  rfl

theorem eval_cast {t : IntType} {a b : Value} (he : e.eval f = .ok a) (hc : a.cast t = .ok b) :
    (Expr.cast e t).eval f = .ok b := by
  show (e.eval f >>= fun a => a.cast t) = _
  rw [he]
  exact hc

/-- A byte that was widened. -/
theorem eval_wide (he : e.eval f = .ok (.byte v)) :
    (Catalog.wide e).eval f = .ok (.number .u16 v.toNat) := by
  have hv := v.toNat_lt
  refine eval_cast he ?_
  rw [cast_unsigned rfl, Nat.mod_eq_of_lt (by show v.toNat < 2 ^ 16; omega)]

theorem eval_asAddress (he : e.eval f = .ok (.word w)) :
    (Catalog.asAddress e).eval f = .ok (.place w) := by
  refine eval_cast he ?_
  have hw := w.toNat_lt
  rw [cast_unsigned rfl, Nat.mod_eq_of_lt (by show w.toNat < 2 ^ 64; omega)]

theorem eval_byteAt {a : Expr} {m : Bool} (hm : f.memoryView = .ok m)
    (ha : a.eval f = .ok (.place w)) : (Expr.byteAt a).eval f = .ok (.byte (f.cpu.at16 w)) := by
  have hl : f.load w.toNat = .ok (.byte (f.cpu.at16 w)) := by
    unfold Frame.load
    rw [hm, Memory.get?_toNat]
    rfl
  show (a.eval f >>= fun v => v.numberOf .usize >>= f.load) = _
  rw [ha]
  exact hl

theorem eval_pointedBy {t : RegisterTerm} {p : Reg16} {m : Bool} (hm : f.memoryView = .ok m)
    (hn : f.needsRegisters = .ok ()) (ht : f.reg16 t = .ok p) :
    (Catalog.pointedBy t).eval f = .ok (.byte (f.cpu.at16 (f.cpu.get16 p))) :=
  eval_byteAt hm (eval_asAddress (eval_pair hn ht))

theorem eval_binary {op : BinaryOp} {a b c : Value} (hop : op ≠ .either) (hl : l.eval f = .ok a)
    (hr : r.eval f = .ok b) (hc : a.combine op b = .ok c) :
    (Expr.binary op l r).eval f = .ok c := by
  cases op with
  | either => exact absurd rfl hop
  | add | and | or | xor | shiftLeft | shiftRight | equal | different | greater =>
    show (l.eval f >>= fun a => r.eval f >>= fun b => a.combine _ b) = _
    rw [hl, hr]
    exact hc

theorem eval_either {a b : Bool} (hl : l.eval f = .ok (.truth a)) (hr : r.eval f = .ok (.truth b)) :
    (Expr.binary .either l r).eval f = .ok (.truth (a || b)) := by
  show (l.eval f >>= fun v => v.truthOf >>= fun a => if a then .ok (Value.truth true) else
    r.eval f >>= fun w => w.truthOf >>= fun b => .ok (Value.truth b)) = _
  rw [hl, hr]
  cases a <;> rfl

theorem eval_complement {a b : Value} (he : e.eval f = .ok a) (hc : a.complement = .ok b) :
    (Expr.complement e).eval f = .ok b := by
  show (e.eval f >>= Value.complement) = _
  rw [he]
  exact hc

theorem eval_wrapping {t : IntType} {m n : Nat} (hl : l.eval f = .ok (.number t m))
    (hr : r.eval f = .ok (.number t n)) :
    (Expr.wrappingAdd l r).eval f = .ok (.number t ((m + n) % t.size)) ∧
    (Expr.wrappingSub l r).eval f = .ok (.number t ((m + (t.size - n)) % t.size)) := by
  show (l.eval f >>= fun v => r.eval f >>= v.wrapping true) = _ ∧
    (l.eval f >>= fun v => r.eval f >>= v.wrapping false) = _
  rw [hl, hr]
  constructor
  · exact if_pos rfl
  · exact if_pos rfl

/-- A sum of words. -/
theorem eval_add16 (hl : l.eval f = .ok (.word w)) (hr : r.eval f = .ok (.word x)) :
    (Expr.wrappingAdd l r).eval f = .ok (.word (w + x)) := by
  rw [(eval_wrapping hl hr).1, Value.word, UInt16.toNat_add]
  rfl

/-- A difference of words. -/
theorem eval_sub16 (hl : l.eval f = .ok (.word w)) (hr : r.eval f = .ok (.word x)) :
    (Expr.wrappingSub l r).eval f = .ok (.word (w - x)) := by
  rw [(eval_wrapping hl hr).2, Value.word, UInt16.toNat_sub, Nat.add_comm]
  rfl

theorem eval_ofBytes (hl : l.eval f = .ok (.byte u)) (hr : r.eval f = .ok (.byte v)) :
    (Expr.ofBytes l r).eval f = .ok (.word (wordOf v u)) := by
  show (l.eval f >>= fun v => r.eval f >>= Value.ofBytes v) = _
  rw [hl, hr, Value.word, wordOf_toNat]
  rfl

/-- A byte as a signed number. -/
theorem eval_signedWord (he : e.eval f = .ok (.byte v)) :
    (Catalog.signedWord e).eval f = .ok (.word (signedWord v)) := by
  have hv := v.toNat_lt
  have h8 : (Expr.cast e .i8).eval f = .ok (.number .i8 v.toNat) := by
    refine eval_cast he ?_
    rw [cast_unsigned rfl, Nat.mod_eq_of_lt (show v.toNat < IntType.i8.size from hv)]
  have h16 : (Expr.cast (Expr.cast e .i8) .i16).eval f =
      .ok (.number .i16 (signedWord v).toNat) := by
    refine eval_cast h8 ?_
    show Except.ok (Value.number .i16 ((if decide (2 ^ 8 ≤ 2 * v.toNat) = true then
      v.toNat + 2 ^ 8 * (2 ^ 16 - 1) else v.toNat) % 2 ^ 16)) = _
    rw [signedWord, UInt16.toNat_ofNat']
    congr 2
    by_cases hs : v.toNat < 128
    · rw [if_neg (by simp; omega), if_pos hs]
    · rw [if_pos (by simp; omega), if_neg hs]
      omega
  refine eval_cast h16 ?_
  have hw := (signedWord v).toNat_lt
  show Except.ok (Value.number .u16 ((if decide (2 ^ 16 ≤ 2 * (signedWord v).toNat) = true then
    (signedWord v).toNat + 2 ^ 16 * (2 ^ 16 - 1) else (signedWord v).toNat) % 2 ^ 16)) = _
  congr 2
  split <;> omega

/-- The low byte of the result. -/
theorem eval_resultByte {n : Nat} (h : f.value .result = .ok (.number .u16 n)) :
    Catalog.resultByte.eval f = .ok (.byte (.ofNat n)) := by
  have hr : Catalog.resultByte.eval f = .ok (.number .u8 (n % 2 ^ 8)) :=
    eval_cast (e := .get .result) h (cast_unsigned rfl n)
  rwa [← UInt8.toNat_ofNat'] at hr

end Expressions

/-! ## 3. Statements -/

section Statements

variable {f g : Frame} {e : Expr} {b : Binding} {a : Value} {v : UInt8} {w x : UInt16}

theorem run_bind (he : e.eval f = .ok a) : (Statement.bind b e).run f = .ok (f.bind b a) := by
  rw [Statement.run, he]
  rfl

theorem run_bindMutable (he : e.eval f = .ok a) :
    (Statement.bindMutable b e).run f = .ok (f.bind b a) := by
  rw [Statement.run, he]
  rfl

theorem run_drop (he : e.eval f = .ok a) : (Statement.drop e).run f = .ok f := by
  rw [Statement.run, he]
  rfl

theorem run_bindBytes {low high : Option Binding} (he : e.eval f = .ok (.word w)) :
    (Statement.bindBytes low high e).run f =
      .ok ((f.bindByte low (lowByte w).toNat).bindByte high (highByte w).toNat) := by
  rw [Statement.run, he, lowByte_toNat, highByte_toNat]
  rfl

theorem write_register {t : RegisterTerm} {R : Reg8} (hn : f.needsRegisters = .ok ())
    (ht : f.reg8 t = .ok R) :
    (Place.register t).write f (.byte v) = .ok { f with cpu := f.cpu.set8 R v } := by
  have hw : (Place.register t).write f (.byte v) =
      .ok { f with cpu := f.cpu.set8 R (UInt8.ofNat v.toNat) } := by
    rw [Place.write, hn, ht]
    rfl
  rwa [UInt8.ofNat_toNat] at hw

/-- Writes an 8-bit register. -/
theorem run_setByte {t : RegisterTerm} {R : Reg8} (he : e.eval f = .ok (.byte v))
    (hn : f.needsRegisters = .ok ()) (ht : f.reg8 t = .ok R) :
    (Catalog.setByte t e).run f = .ok { f with cpu := f.cpu.set8 R v } := by
  rw [Catalog.setByte, Statement.run, he]
  exact write_register hn ht

theorem write_byteAt {p : Expr} (hm : f.memoryView = .ok true) (hp : p.eval f = .ok (.place w)) :
    (Place.byteAt p).write f (.byte v) = .ok { f with cpu := f.cpu.put w v } := by
  have hs : f.store w.toNat (UInt8.ofNat v.toNat) = .ok { f with cpu := f.cpu.put w v } := by
    unfold Frame.store
    rw [hm, UInt8.ofNat_toNat, Memory.set?_toNat]
    rfl
  rw [Place.write, hp]
  exact hs

/-- Writes a byte of memory. -/
theorem run_store {p : Expr} (he : e.eval f = .ok (.byte v)) (hm : f.memoryView = .ok true)
    (hp : p.eval f = .ok (.place w)) :
    (Statement.assign (.byteAt p) e).run f = .ok { f with cpu := f.cpu.put w v } := by
  rw [Statement.run, he]
  exact write_byteAt hm hp

/-- Writes a 16-bit register. -/
theorem run_setPair {t : RegisterTerm} {p : Reg16} (he : e.eval f = .ok (.word w))
    (hn : f.needsRegisters = .ok ()) (ht : f.reg16 t = .ok p) :
    (Statement.setPair t e).run f = .ok { f with cpu := f.cpu.set16 p w } := by
  have hw : (Statement.setPair t e).run f =
      .ok { f with cpu := f.cpu.set16 p (UInt16.ofNat w.toNat) } := by
    rw [Statement.run, he, hn, ht]
    rfl
  rwa [UInt16.ofNat_toNat] at hw

/-- Assigns the program counter. -/
theorem run_setPc (he : e.eval f = .ok (.word w)) (ha : f.access .pc = .ok .pc) :
    (Catalog.setPc e).run f = .ok { f with cpu := f.cpu.goto w } := by
  have hw : (Place.deref .pc).write f (.word w) =
      .ok { f with cpu := f.cpu.goto (UInt16.ofNat w.toNat) } := by
    rw [Place.write, ha]
    rfl
  rw [UInt16.ofNat_toNat] at hw
  rw [Catalog.setPc, Statement.run, he]
  exact hw

/-- Assigns a flag. -/
theorem run_setFlag {F : Flag} {t : Bool} (he : e.eval f = .ok (.truth t))
    (ha : f.access (.flag F) = .ok (.flag F)) :
    (Statement.assign (.deref (.flag F)) e).run f = .ok { f with cpu := f.cpu.setFlag F t } := by
  have hw : (Place.deref (.flag F)).write f (.truth t) =
      .ok { f with cpu := f.cpu.setFlag F t } := by
    rw [Place.write, ha]
    rfl
  rw [Statement.run, he]
  exact hw

/-- Assigns a variable. -/
theorem run_setNamed {old : Value} (he : e.eval f = .ok a) (hb : f.value b = .ok old) :
    (Statement.assign (.named b) e).run f = .ok (f.bind b a) := by
  have hw : (Place.named b).write f a = .ok (f.bind b a) := by
    rw [Place.write, hb]
    rfl
  rw [Statement.run, he]
  exact hw

/-- Updates a place. -/
theorem run_update {op : BinaryOp} {p : Place} {old new : Value} (he : e.eval f = .ok a)
    (hp : p.eval f = .ok old) (hc : old.combine op a = .ok new) (hw : p.write f new = .ok g) :
    (Statement.update op p e).run f = .ok g := by
  rw [Statement.run, he]
  show (p.eval f >>= fun old => old.combine op a >>= fun new => p.write f new) = _
  rw [hp]
  show (old.combine op a >>= fun new => p.write f new) = _
  rw [hc]
  exact hw

end Statements

/-! ## 4. Programs -/

section Programs

variable {f g : Frame} {t : Statement} {rest : Program} {r : Run Frame}

theorem run_step (ht : t.run f = .ok g) (hr : rest.run g = r) :
    (Program.step t rest).run f = r := by
  rw [Program.run, ht]
  exact hr

theorem run_blank (hr : rest.run f = r) : (Program.blank rest).run f = r := hr

theorem run_choose {c : Expr} {yes no : Program} {b : Bool} (hc : c.eval f = .ok (.truth b))
    (hb : (if b then yes.run f else no.run f) = .ok g) (hr : rest.run g = r) :
    (Program.choose c yes no rest).run f = r := by
  rw [Program.run, hc]
  cases b with
  | true =>
    show (yes.run f >>= fun s => rest.run s) = r
    rw [show yes.run f = .ok g from hb]
    exact hr
  | false =>
    show (no.run f >>= fun s => rest.run s) = r
    rw [show no.run f = .ok g from hb]
    exact hr

end Programs

/-! ## 5. Updates of the flags -/

section Updates

variable {f g : Frame} {F : Flag}

theorem runUpdates_cons {u : FlagUpdate} {us : List FlagUpdate} {r : Run Frame}
    (hu : u.statement.run f = .ok g) (hr : runUpdates g us = r) : runUpdates f (u :: us) = r := by
  rw [runUpdates, hu]
  exact hr

theorem run_fixed {v : Bool} (ha : f.access (.flag F) = .ok (.flag F)) :
    (FlagUpdate.fixed F v).statement.run f = .ok { f with cpu := f.cpu.setFlag F v } :=
  run_setFlag rfl ha

theorem eval_zeroTest {t : IntType} {n : Nat} (hr : f.value .result = .ok (.number t n)) :
    zeroTest.eval f = .ok (.truth (n % 256 == 0)) := by
  have hv : (Expr.cast (.get .result) .u8).eval f = .ok (.number .u8 (n % 256)) :=
    eval_cast hr (cast_byte t n)
  exact eval_binary (by decide) hv rfl rfl

theorem run_zero {t : IntType} {n : Nat} (hr : f.value .result = .ok (.number t n))
    (ha : f.access (.flag F) = .ok (.flag F)) :
    (FlagUpdate.zero F).statement.run f =
      .ok { f with cpu := f.cpu.setFlag F (n % 256 == 0) } :=
  run_setFlag (eval_zeroTest hr) ha

/-- A single bit of a number is taken out by a power of two. -/
theorem and_two_pow_ne_zero (x k : Nat) : (x &&& 2 ^ k != 0) = x.testBit k := by
  rw [Nat.and_two_pow]
  cases x.testBit k with
  | true => simp
  | false => simp

/-- A binding holds a number whose bit `k` outlasts a cast: a type with a sign has to be wider. -/
def Frame.ShowsBit (f : Frame) (b : Binding) (k n : Nat) : Prop :=
  ∃ t : IntType, f.value b = .ok (.number t n) ∧ (t.signed = true → k < t.width)

theorem showsBit_of_unsigned {b : Binding} {t : IntType} {n : Nat} (ht : t.signed = false)
    (h : f.value b = .ok (.number t n)) (k : Nat) : f.ShowsBit b k n :=
  ⟨t, h, fun hsigned => absurd (ht.symm.trans hsigned) Bool.false_ne_true⟩

theorem Frame.ShowsBit.eval_cast {b : Binding} {k n : Nat} (h : f.ShowsBit b k n) {u : IntType}
    (hk : k < u.width) : ∃ m, (Expr.group (.cast (.get b) u)).eval f = .ok (.number u m) ∧
      m.testBit k = n.testBit k := by
  obtain ⟨t, hvalue, hsign⟩ := h
  obtain ⟨m, hcast, hbits⟩ := exists_cast t u n
  exact ⟨m, Sm83Codegen.eval_cast (e := .get b) hvalue hcast, hbits k hk hsign⟩

theorem CarryWidth.bit_lt_width (width : CarryWidth) : width.bit < width.type.width := by
  cases width <;> decide

/-- The bit that a carry test looks at, in the numbers before they were cast. -/
theorem eval_carryTest {width : CarryWidth} {m n r : Nat}
    (h₁ : f.ShowsBit .operand1 width.bit m) (h₂ : f.ShowsBit .operand2 width.bit n)
    (h₃ : f.ShowsBit .result width.bit r) :
    (carryTest width).eval f = .ok (.truth ((m ^^^ n ^^^ r).testBit width.bit)) := by
  have hlt := width.bit_lt_width
  obtain ⟨x, hx, hxbit⟩ := h₁.eval_cast hlt
  obtain ⟨y, hy, hybit⟩ := h₂.eval_cast hlt
  obtain ⟨z, hz, hzbit⟩ := h₃.eval_cast hlt
  have hxor : (Expr.binary .xor (.binary .xor (.group (.cast (.get .operand1) width.type))
      (.group (.cast (.get .operand2) width.type))) (.group (.cast (.get .result) width.type))).eval
        f = .ok (.number width.type (x ^^^ y ^^^ z)) :=
    eval_binary (by decide) (eval_binary (by decide) hx hy (if_pos rfl)) hz (if_pos rfl)
  have hmask : (Expr.group (.binary .shiftLeft (.number width.type 1 .decimal)
      (.number .u8 width.bit .decimal))).eval f = .ok (.number width.type (2 ^ width.bit)) := by
    refine eval_binary (by decide) rfl rfl ?_
    rw [combine_shiftLeft hlt, Nat.one_mul, IntType.size_eq,
      Nat.mod_eq_of_lt (Nat.pow_lt_pow_right (by decide) hlt)]
  have htest : (carryTest width).eval f =
      .ok (.truth (((x ^^^ y ^^^ z) &&& 2 ^ width.bit) != 0)) :=
    eval_binary (by decide) (eval_binary (by decide) hxor hmask (if_pos rfl)) rfl (if_pos rfl)
  rw [htest, and_two_pow_ne_zero]
  simp only [Nat.testBit_xor, hxbit, hybit, hzbit]

/-- A flag gets what the carry test says. -/
theorem run_carry {width : CarryWidth} {t₁ t₂ t₃ : IntType} {m n r : Nat}
    (ht₁ : t₁.signed = false) (ht₂ : t₂.signed = false) (ht₃ : t₃.signed = false)
    (h₁ : f.value .operand1 = .ok (.number t₁ m)) (h₂ : f.value .operand2 = .ok (.number t₂ n))
    (h₃ : f.value .result = .ok (.number t₃ r)) (ha : f.access (.flag F) = .ok (.flag F)) :
    (FlagUpdate.carry F width).statement.run f =
      .ok { f with cpu := f.cpu.setFlag F ((m ^^^ n ^^^ r).testBit width.bit) } :=
  run_setFlag (eval_carryTest (showsBit_of_unsigned ht₁ h₁ _) (showsBit_of_unsigned ht₂ h₂ _)
    (showsBit_of_unsigned ht₃ h₃ _)) ha

/-- Z says whether a byte is zero, the other flags are fixed. -/
theorem run_byteUpdates {v : UInt8} {s h c : Bool} (h₃ : f.value .result = .ok (.byte v))
    (hF : ∀ F, f.access (.flag F) = .ok (.flag F)) :
    runUpdates f [.zero .Z, .fixed .N s, .fixed .H h, .fixed .C c] =
      .ok { f with cpu := f.cpu.setFlags (v == 0) s h c } := by
  rw [← toNat_beq_zero]
  exact runUpdates_cons (run_zero h₃ (hF .Z)) (runUpdates_cons (run_fixed (hF .N))
    (runUpdates_cons (run_fixed (hF .H)) (runUpdates_cons (run_fixed (hF .C)) rfl)))

/-- Every flag fixed. -/
theorem run_fixedUpdates {z s h c : Bool} (hF : ∀ F, f.access (.flag F) = .ok (.flag F)) :
    runUpdates f [.fixed .Z z, .fixed .N s, .fixed .H h, .fixed .C c] =
      .ok { f with cpu := f.cpu.setFlags z s h c } :=
  runUpdates_cons (run_fixed (hF .Z)) (runUpdates_cons (run_fixed (hF .N))
    (runUpdates_cons (run_fixed (hF .H)) (runUpdates_cons (run_fixed (hF .C)) rfl)))

end Updates

/-! ## 6. Fragments with their updates -/

/-- A fragment and the updates after it bring the machine to a state. What they bind is gone with
    the routine. -/
def Fragment.Makes (fragment : Fragment) (updates : List FlagUpdate) (f : Frame) (t : Cpu) :
    Prop :=
  ∃ g h, fragment.run f = .ok g ∧ runUpdates g updates = .ok h ∧ h.cpu = t

theorem makes_program {l : Layout} {p : Program} {updates : List FlagUpdate} {f g h : Frame}
    {t : Cpu} (hp : p.run f = .ok g) (hu : runUpdates g updates = .ok h) (ht : h.cpu = t) :
    (Fragment.program l p).Makes updates f t := ⟨g, h, hp, hu, ht⟩

theorem makes_framed {p : Program} {f g : Frame} {t : Cpu} (hp : p.run f = .ok g)
    (ht : g.cpu = t) : (Catalog.framed p).Makes [] f t := makes_program hp rfl ht

theorem makes_single {a : Statement} {f g : Frame} {t : Cpu} (ha : a.run f = .ok g)
    (ht : g.cpu = t) : (Catalog.single a).Makes [] f t := ⟨g, g, run_step ha rfl, rfl, ht⟩

/-! ## 7. Operations -/

section Operations

open Instruction (plain branching condition)

variable {len base : UInt8} {fragment : Fragment} {updates : List FlagUpdate} {s : Cpu}
  {c : Captures} {bs : List (Binding × Access)} {g h : Frame}

theorem pass_cons {b : Binding} {a : Argument} {x : Access} {rest : List (Binding × Argument)}
    (ha : a.access s c = .ok x) (hr : Operation.pass s c rest = .ok bs) :
    Operation.pass s c ((b, a) :: rest) = .ok ((b, x) :: bs) := by
  rw [Operation.pass, ha, hr]
  rfl

/-- A word is passed byte by byte, the low byte first. -/
theorem access_word (s : Cpu) (l h : UInt8) :
    Argument.immediateWord.access s (.ofTail [l, h]) = .ok (.value (.word (wordIn [l, h]))) := by
  rw [wordIn, Value.word, wordOf_toNat]
  rfl

/-- A routine first moves the program counter past its instruction. -/
theorem advanced_eq (s : Cpu) (bs : List (Binding × Access)) (len : UInt8) :
    advanced ⟨s, (.pc, .pc) :: bs⟩ len = .ok ⟨s.advance len, (.pc, .pc) :: bs⟩ := by
  have he : (Expr.wrappingAdd (.through .pc) (.number .u16 len.toNat .decimal)).eval
      ⟨s, (.pc, .pc) :: bs⟩ = .ok (.word (s.pc + len.toUInt16)) :=
    eval_add16 (f := ⟨s, (.pc, .pc) :: bs⟩) (w := s.pc) (x := len.toUInt16) rfl
      (by rw [Value.word, UInt8.toNat_toUInt16]; rfl)
  exact run_setPc he rfl

/-- An operation whose routine runs executes. -/
theorem execute_of_run {o : Operation} {passed : List (Binding × Argument)} {taken : Bool}
    (ho : o.arguments = (.pc, .pcBorrow) :: passed) (hp : Operation.pass s c passed = .ok bs)
    (hr : o.routine.run ⟨s, (.pc, .pc) :: bs⟩ = .ok (h, taken)) :
    o.execute s c = .executed h.cpu (o.cycles taken) := by
  have hb : Operation.pass s c o.arguments = .ok ((.pc, .pc) :: bs) := by
    rw [ho]
    exact pass_cons rfl hp
  have hc : o.call s c = .ok (h.cpu, o.cycles taken) := by
    unfold Operation.call
    rw [hb]
    show (o.routine.run ⟨s, (.pc, .pc) :: bs⟩ >>= fun r => .ok (r.1.cpu, o.cycles r.2)) = _
    rw [hr]
    rfl
  unfold Operation.execute
  rw [hc]

/-- A routine that branches runs its fragment and then updates the flags. -/
theorem run_taken {r : Routine} (hb : r.branches ⟨s.advance r.length, (.pc, .pc) :: bs⟩ = .ok true)
    (hf : r.fragment.run ⟨s.advance r.length, (.pc, .pc) :: bs⟩ = .ok g)
    (hu : runUpdates g r.updates = .ok h) : r.run ⟨s, (.pc, .pc) :: bs⟩ = .ok (h, true) :=
  Routine.run_eq_ok.mpr ⟨_, advanced_eq s bs r.length, hb, g, hf, hu⟩

/-- A routine that does not branch only moves the program counter. -/
theorem run_untaken {r : Routine}
    (hb : r.branches ⟨s.advance r.length, (.pc, .pc) :: bs⟩ = .ok false) :
    r.run ⟨s, (.pc, .pc) :: bs⟩ = .ok (⟨s.advance r.length, (.pc, .pc) :: bs⟩, false) :=
  Routine.run_eq_ok.mpr ⟨_, advanced_eq s bs r.length, hb, rfl⟩

/-- **An operation without a condition runs its fragment and then updates the flags.** -/
theorem execute_plain {passed : List (Binding × Argument)} {t : Cpu}
    (hp : Operation.pass s c passed = .ok bs)
    (hm : fragment.Makes updates ⟨s.advance len, (.pc, .pc) :: bs⟩ t) :
    (plain len base passed fragment updates).execute s c = .executed t base := by
  obtain ⟨g, h, hf, hu, rfl⟩ := hm
  exact execute_of_run rfl hp (run_taken rfl hf hu)

/-- **An operation with a condition runs its fragment if its flag has the value it asks for.** -/
theorem execute_branching {F : Flag} {v : Bool} {always taken untaken : UInt8} {t : Cpu}
    {before after : List (Binding × Argument)}
    (hp : Operation.pass s c (before ++ condition (some (F, v)) ++ after) = .ok bs)
    (hF : (⟨s.advance len, (.pc, .pc) :: bs⟩ : Frame).value .conditionFlag =
      .ok (.truth (s.flag F)))
    (hv : (⟨s.advance len, (.pc, .pc) :: bs⟩ : Frame).value .flagCondition = .ok (.truth v))
    (hm : fragment.Makes [] ⟨s.advance len, (.pc, .pc) :: bs⟩ t) :
    (branching (some (F, v)) len always taken untaken before after fragment).execute s c =
      if s.flag F == v then .executed t taken else .executed (s.advance len) untaken := by
  obtain ⟨g, h, hf, hu, rfl⟩ := hm
  have hb : (branching (some (F, v)) len always taken untaken before after
      fragment).routine.branches ⟨s.advance len, (.pc, .pc) :: bs⟩ = .ok (s.flag F == v) := by
    have he : (Expr.binary .different (.get .conditionFlag) (.get .flagCondition)).eval
        ⟨s.advance len, (.pc, .pc) :: bs⟩ = .ok (.truth (s.flag F != v)) :=
      eval_binary (by decide) hF hv rfl
    unfold Routine.branches
    rw [if_pos (by rfl), he]
    cases s.flag F <;> cases v <;> rfl
  cases he : s.flag F == v with
  | true =>
    rw [he] at hb
    exact execute_of_run rfl hp (run_taken hb hf hu)
  | false =>
    rw [he] at hb
    exact execute_of_run rfl hp (run_untaken hb)

end Operations

/-! ## 8. Instructions -/

/-- An instruction executes as its meaning says. -/
def Instruction.Executes (i : Instruction) (tail : List UInt8) (s : Cpu) : Prop :=
  i.operation.execute s (.ofTail tail) = .executed (i.step tail s) (i.cycles s)

/-- **An instruction without a condition executes if its fragment and its updates make its
    effect.** -/
theorem executes_plain {i : Instruction} {tail : List UInt8} {s : Cpu} {len base : UInt8}
    {passed : List (Binding × Argument)} {fragment : Fragment} {updates : List FlagUpdate}
    {bs : List (Binding × Access)}
    (ho : i.operation = Instruction.plain len base passed fragment updates)
    (hc : i.condition? = none) (hp : Operation.pass s (.ofTail tail) passed = .ok bs)
    (hm : fragment.Makes updates ⟨s.advance len, (.pc, .pc) :: bs⟩
      (i.effect tail (s.advance len))) :
    i.Executes tail s := by
  unfold Instruction.Executes Instruction.step Instruction.cycles
  rw [Instruction.taken_plain hc, ho, execute_plain hp hm]
  rfl

/-- **An instruction with a condition executes if its fragment makes its effect.** -/
theorem executes_conditional {i : Instruction} {tail : List UInt8} {s : Cpu} {F : Flag} {v : Bool}
    {len always taken untaken : UInt8} {before after : List (Binding × Argument)}
    {fragment : Fragment} {bs : List (Binding × Access)}
    (ho : i.operation =
      Instruction.branching (some (F, v)) len always taken untaken before after fragment)
    (hc : i.condition? = some (F, v))
    (hp : Operation.pass s (.ofTail tail)
      (before ++ Instruction.condition (some (F, v)) ++ after) = .ok bs)
    (hF : (⟨s.advance len, (.pc, .pc) :: bs⟩ : Frame).value .conditionFlag =
      .ok (.truth (s.flag F)))
    (hv : (⟨s.advance len, (.pc, .pc) :: bs⟩ : Frame).value .flagCondition = .ok (.truth v))
    (hm : fragment.Makes [] ⟨s.advance len, (.pc, .pc) :: bs⟩ (i.effect tail (s.advance len))) :
    i.Executes tail s := by
  unfold Instruction.Executes Instruction.step Instruction.cycles
  rw [Instruction.taken_conditional hc, ho, execute_branching hp hF hv hm]
  cases s.flag F == v with
  | true => rfl
  | false => rfl

end Sm83Codegen
