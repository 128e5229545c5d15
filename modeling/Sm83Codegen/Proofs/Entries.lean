import Mathlib.Data.List.Dedup
import Sm83Codegen.Proofs.Loading

/-!
# Which members of a page become records

A page is read member by member into a map. Names that spell one opcode differently are met there
as two keys and then as two records of one key, which is a fault. A name that is written twice is
one key: the second entry takes the place of the first, and nothing says so.

* `Partition.put` -- its keys, and what a key finds;
* `Json.pages` -- the members of the two pages of a document, as they are written;
* `Read.document_pages` -- a document has the pages that these members are read into;
* `ofText_pages` -- the records of a table are those of the last members of each name;
* `twoRows`, `ofText_twiceWritten` -- a table with fewer records than members.
-/

namespace Sm83Codegen

open Logged (bind_eq_ok)
open Json (Members)

/-! ## 1. Entries under keys -/

namespace Partition

/-- A key that is there already stays where it is. -/
theorem put_keys (key : String) (e : Entry) (p : Partition) :
    (put key e p).map Prod.fst =
      if key ∈ p.map Prod.fst then p.map Prod.fst else p.map Prod.fst ++ [key] := by
  induction p with
  | nil => rfl
  | cons first p ih =>
    obtain ⟨k, d⟩ := first
    unfold put
    by_cases hk : k = key
    · subst hk
      simp
    · have hne : ¬(k == key) = true := fun h => hk (beq_iff_eq.mp h)
      have hkey : key ∈ k :: p.map Prod.fst ↔ key ∈ p.map Prod.fst := by
        rw [List.mem_cons, or_iff_right (Ne.symm hk)]
      rw [if_neg hne, List.map_cons, List.map_cons, ih]
      by_cases hmem : key ∈ p.map Prod.fst
      · rw [if_pos hmem, if_pos (hkey.mpr hmem)]
      · rw [if_neg hmem, if_neg fun h => hmem (hkey.mp h)]
        rfl

theorem mem_put_keys {key k : String} {e : Entry} {p : Partition} :
    k ∈ (put key e p).map Prod.fst ↔ k = key ∨ k ∈ p.map Prod.fst := by
  rw [put_keys]
  by_cases hmem : key ∈ p.map Prod.fst
  · rw [if_pos hmem]
    constructor
    · exact .inr
    · intro h
      rcases h with h | h
      · rw [h]
        exact hmem
      · exact h
  · rw [if_neg hmem, List.mem_append, List.mem_singleton, or_comm]

theorem put_nodup {key : String} {e : Entry} {p : Partition} (h : (p.map Prod.fst).Nodup) :
    ((put key e p).map Prod.fst).Nodup := by
  rw [put_keys]
  by_cases hmem : key ∈ p.map Prod.fst
  · rw [if_pos hmem]
    exact h
  · rw [if_neg hmem]
    exact List.nodup_append.mpr ⟨h, List.nodup_singleton key, fun k hk l hl hkl => by
      rw [List.mem_singleton.mp hl] at hkl
      exact hmem (hkl ▸ hk)⟩

theorem lookup_cons (k l : String) (e : Entry) (p : Partition) :
    List.lookup k ((l, e) :: p) = if k = l then some e else List.lookup k p := by
  rw [List.lookup_cons]
  by_cases hk : k = l
  · rw [if_pos hk, beq_iff_eq.mpr hk]
  · rw [if_neg hk, beq_eq_false_iff_ne.mpr hk]

/-- The entry under a key is the one that was put there last. -/
theorem lookup_put (key k : String) (e : Entry) (p : Partition) :
    (put key e p).lookup k = if k = key then some e else p.lookup k := by
  induction p with
  | nil => exact lookup_cons k key e []
  | cons first p ih =>
    obtain ⟨l, d⟩ := first
    unfold put
    by_cases hl : l = key
    · rw [if_pos (beq_iff_eq.mpr hl), lookup_cons, lookup_cons, hl]
      by_cases hk : k = key
      · rw [if_pos hk, if_pos hk]
      · rw [if_neg hk, if_neg hk, if_neg hk]
    · rw [if_neg fun h => hl (beq_iff_eq.mp h), lookup_cons, lookup_cons, ih]
      by_cases hk : k = l
      · have hkey : k ≠ key := fun h => hl (hk.symm.trans h)
        rw [if_pos hk, if_neg hkey, if_pos hk]
      · rw [if_neg hk, if_neg hk]

/-- Puts entries in order. -/
def putAll (es : List (String × Entry)) (p : Partition) : Partition :=
  es.foldl (fun p e => put e.1 e.2 p) p

/-- **Entries that are put in order leave each key once, with its last entry.** -/
theorem putAll_spec (es : List (String × Entry)) {p : Partition} (hp : (p.map Prod.fst).Nodup) :
    ((putAll es p).map Prod.fst).Nodup ∧
    (∀ k, k ∈ (putAll es p).map Prod.fst ↔ k ∈ es.map Prod.fst ∨ k ∈ p.map Prod.fst) ∧
    ∀ k, (putAll es p).lookup k = (es.reverse.lookup k).or (p.lookup k) := by
  induction es generalizing p with
  | nil => exact ⟨hp, fun k => by simp [putAll], fun k => rfl⟩
  | cons e es ih =>
    obtain ⟨key, e⟩ := e
    have hput : ((put key e p).map Prod.fst).Nodup := put_nodup hp
    obtain ⟨hnodup, hmem, hlookup⟩ := ih hput
    refine ⟨hnodup, fun k => ?_, fun k => ?_⟩
    · refine (hmem k).trans ?_
      rw [mem_put_keys, List.map_cons, List.mem_cons]
      tauto
    · refine (hlookup k).trans ?_
      rw [lookup_put, List.reverse_cons, List.lookup_append, Option.or_assoc, lookup_cons]
      by_cases hk : k = key
      · rw [if_pos hk, if_pos hk]
        rfl
      · rw [if_neg hk, if_neg hk]
        rfl

/-- As many keys as different names. -/
theorem length_putAll (es : List (String × Entry)) :
    (putAll es []).length = (es.map Prod.fst).dedup.length := by
  obtain ⟨hnodup, hmem, _⟩ := putAll_spec es (p := []) List.nodup_nil
  have hperm : ((putAll es []).map Prod.fst).Perm (es.map Prod.fst).dedup := by
    refine (List.perm_ext_iff_of_nodup hnodup (List.nodup_dedup _)).mpr fun k => ?_
    rw [hmem, List.mem_dedup]
    simp
  rw [← hperm.length_eq, List.length_map]

end Partition

/-! ## 2. Pages as they are written -/

namespace Json

/-- The members of an object; another value has none. -/
def members : Json → Members
  | .object ms => ms
  | _ => []

/-- The first member with one of some names. -/
def named (names : List String) (ms : Members) : Option (Json.Placed (Option String) × Json.Placed Json) :=
  ms.find? fun m => m.1.value.any names.contains

/-- The members of the two pages of a table document, in the order of the text. -/
def pages : Json → Members × Members
  | .object ms =>
    ((named ["unprefixed"] ms).elim [] fun m => m.2.value.members,
      (named ["prefixed", "cbprefixed"] ms).elim [] fun m => m.2.value.members)
  | .array vs =>
    (vs[0]?.elim [] fun v => v.value.members, vs[1]?.elim [] fun v => v.value.members)
  | _ => ([], [])

/-- The names of members, in order. -/
def names (ms : Members) : List String := ms.filterMap fun m => m.1.value

end Json

namespace Read

/-- Members are read into a page. -/
def IsPage (ms : Members) (p : Partition) : Prop := members partitionMember [] ms = .ok p

theorem partition_isPage {v : Json.Placed Json} {p : Partition} (h : partition v = .ok p) :
    IsPage v.value.members p := by
  unfold partition at h
  split at h
  · next ms hv =>
    unfold IsPage
    rw [hv]
    exact h
  · unfold mismatch at h
    cases hd : describe v.value with
    | error e =>
      rw [hd] at h
      cases h
    | ok what =>
      rw [hd] at h
      cases h

/-- A member that one of some names fills is the first one with such a name. -/
theorem members_filled {α β : Type} {step : α → String → List Char → Json.Placed Json → Read α}
    (get : α → Option β) (read : Json.Placed Json → Read β) {names : List String}
    (hstep : ∀ a name rest v a', step a name rest v = .ok a' →
      (name ∈ names → get a = none ∧ ∃ b, read v = .ok b ∧ get a' = some b) ∧
      (name ∉ names → get a' = get a))
    {a a' : α} {ms : Members} (h : members step a ms = .ok a') :
    (Json.named names ms = none ∧ get a' = get a) ∨
      ∃ m b, Json.named names ms = some m ∧ get a = none ∧ read m.2 = .ok b ∧ get a' = some b := by
  induction ms generalizing a with
  | nil =>
    cases h
    exact .inl ⟨rfl, rfl⟩
  | cons m ms ih =>
    obtain ⟨⟨name, start, rest⟩, v⟩ := m
    cases name with
    | none => cases h
    | some name =>
      obtain ⟨a₁, h₁, h⟩ := bind_eq_ok.mp h
      obtain ⟨hin, hout⟩ := hstep a name rest v a₁ h₁
      have hnamed : Json.named names ((⟨some name, start, rest⟩, v) :: ms) =
          if name ∈ names then some (⟨some name, start, rest⟩, v) else Json.named names ms := by
        unfold Json.named
        rw [List.find?_cons]
        by_cases hname : name ∈ names
        · simp [hname]
        · simp [hname]
      by_cases hname : name ∈ names
      · obtain ⟨hget, b, hread, hget₁⟩ := hin hname
        rw [if_pos hname] at hnamed
        rcases ih h with ⟨_, hget'⟩ | ⟨_, _, _, hnone, _⟩
        · exact .inr ⟨_, b, hnamed, hget, hread, hget'.trans hget₁⟩
        · rw [hget₁] at hnone
          cases hnone
      · rw [if_neg hname] at hnamed
        rw [hnamed, ← hout hname]
        exact ih h

/-- A field of a document is filled by a member that names it, once. -/
theorem once_eq_ok {α : Type} {name : String} {rest : List Char} {old : Option α} {value : Read α}
    {new : Option α} (h : once name rest old value = .ok new) :
    old = none ∧ ∃ a, value = .ok a ∧ new = some a := by
  unfold once at h
  cases old with
  | some a =>
    unfold duplicate misshapen at h
    cases h
  | none =>
    cases value with
    | error e => cases h
    | ok a =>
      cases h
      exact ⟨rfl, a, rfl, rfl⟩

theorem map_eq_ok {α β : Type} {f : α → β} {r : Read α} {b : β} (h : r.map f = .ok b) :
    ∃ a, r = .ok a ∧ f a = b := by
  cases r with
  | error e => cases h
  | ok a =>
    cases h
    exact ⟨a, rfl, rfl⟩

/-- What one member of a document fills. -/
theorem documentField_eq_ok {d d' : DocumentFields} {name : String} {rest : List Char}
    {v : Json.Placed Json} (h : documentField d name rest v = .ok d') :
    ((name ∈ ["unprefixed"] → d.plain = none ∧ ∃ p, partition v = .ok p ∧ d'.plain = some p) ∧
      (name ∉ ["unprefixed"] → d'.plain = d.plain)) ∧
    ((name ∈ ["prefixed", "cbprefixed"] →
        d.paged = none ∧ ∃ p, partition v = .ok p ∧ d'.paged = some p) ∧
      (name ∉ ["prefixed", "cbprefixed"] → d'.paged = d.paged)) := by
  unfold documentField at h
  split at h
  · obtain ⟨new, hnew, rfl⟩ := map_eq_ok h
    obtain ⟨hold, p, hp, rfl⟩ := once_eq_ok hnew
    exact ⟨⟨fun _ => ⟨hold, p, hp, rfl⟩, fun hne => absurd List.mem_cons_self hne⟩,
      fun hmem => by simp at hmem, fun _ => rfl⟩
  · obtain ⟨new, hnew, rfl⟩ := map_eq_ok h
    obtain ⟨hold, p, hp, rfl⟩ := once_eq_ok hnew
    exact ⟨⟨fun hmem => by simp at hmem, fun _ => rfl⟩,
      fun _ => ⟨hold, p, hp, rfl⟩, fun hne => absurd List.mem_cons_self hne⟩
  · obtain ⟨new, hnew, rfl⟩ := map_eq_ok h
    obtain ⟨hold, p, hp, rfl⟩ := once_eq_ok hnew
    exact ⟨⟨fun hmem => by simp at hmem, fun _ => rfl⟩,
      fun _ => ⟨hold, p, hp, rfl⟩, fun hne => absurd (by simp) hne⟩
  · next hplain hpaged hpaged' =>
    cases h
    exact ⟨⟨fun hmem => absurd (List.mem_singleton.mp hmem) hplain, fun _ => rfl⟩,
      fun hmem => by
        rcases List.mem_pair.mp hmem with hname | hname
        · exact absurd hname hpaged
        · exact absurd hname hpaged',
      fun _ => rfl⟩

/-- A page that members fill, or that nothing names. -/
theorem isPage_of_filled {names : List String} {ms : Members} {p : Option Partition}
    (h : (Json.named names ms = none ∧ p = none) ∨
      ∃ m q, Json.named names ms = some m ∧ partition m.2 = .ok q ∧ p = some q) :
    IsPage ((Json.named names ms).elim [] fun m => m.2.value.members) (p.getD []) := by
  rcases h with ⟨hnone, rfl⟩ | ⟨m, q, hm, hq, rfl⟩
  · rw [hnone]
    rfl
  · rw [hm]
    exact partition_isPage hq

theorem optional_isPage {vs vs' : List (Json.Placed Json)} {p : Partition}
    (h : optional partition [] vs = .ok (p, vs')) :
    vs' = vs.tail ∧ IsPage (vs[0]?.elim [] fun v => v.value.members) p := by
  cases vs with
  | nil =>
    cases h
    exact ⟨rfl, rfl⟩
  | cons v vs =>
    obtain ⟨q, hq, h⟩ := bind_eq_ok.mp h
    cases h
    exact ⟨rfl, partition_isPage hq⟩

/-- **A document has the pages that its members are read into.** -/
theorem document_pages {v : Json.Placed Json} {d : TableDocument} (h : document v = .ok d) :
    IsPage v.value.pages.1 d.plain ∧ IsPage v.value.pages.2 d.paged := by
  unfold document at h
  split at h
  · next ms hv =>
    obtain ⟨f, hf, h⟩ := bind_eq_ok.mp h
    cases h
    have hplain := members_filled DocumentFields.plain partition
      (fun _ _ _ _ _ hstep => (documentField_eq_ok hstep).1) hf
    have hpaged := members_filled DocumentFields.paged partition
      (fun _ _ _ _ _ hstep => (documentField_eq_ok hstep).2) hf
    rw [hv]
    refine ⟨isPage_of_filled (hplain.imp id ?_), isPage_of_filled (hpaged.imp id ?_)⟩
    · rintro ⟨m, q, hm, _, hq, hget⟩
      exact ⟨m, q, hm, hq, hget⟩
    · rintro ⟨m, q, hm, _, hq, hget⟩
      exact ⟨m, q, hm, hq, hget⟩
  · next vs hv =>
    obtain ⟨⟨plain, vs₁⟩, h₁, h⟩ := bind_eq_ok.mp h
    obtain ⟨⟨paged, vs₂⟩, h₂, h⟩ := bind_eq_ok.mp h
    obtain ⟨rfl, hplain⟩ := optional_isPage h₁
    obtain ⟨rfl, hpaged⟩ := optional_isPage h₂
    rw [hv]
    cases hrest : vs.tail.tail with
    | nil =>
      rw [hrest] at h
      cases h
      rw [List.getElem?_tail] at hpaged
      exact ⟨hplain, hpaged⟩
    | cons u us =>
      rw [hrest] at h
      cases h
  · unfold mismatch at h
    cases hd : describe v.value with
    | error e =>
      rw [hd] at h
      cases h
    | ok what =>
      rw [hd] at h
      cases h

/-- The members of a page with the entries that they write. -/
def Entries (ms : Members) (es : List (String × Entry)) : Prop :=
  List.Forall₂ (fun m e => m.1.value = some e.1 ∧ entry m.2 = .ok e.2) ms es

/-- A page is read from its members one by one. -/
theorem members_partitionMember {p p' : Partition} {ms : Members}
    (h : members partitionMember p ms = .ok p') :
    ∃ es, Entries ms es ∧ p' = Partition.putAll es p := by
  induction ms generalizing p with
  | nil =>
    cases h
    exact ⟨[], .nil, rfl⟩
  | cons m ms ih =>
    obtain ⟨⟨name, start, rest⟩, v⟩ := m
    cases name with
    | none => cases h
    | some name =>
      obtain ⟨p₁, h₁, h⟩ := bind_eq_ok.mp h
      obtain ⟨e, he, rfl⟩ := map_eq_ok h₁
      obtain ⟨es, hes, rfl⟩ := ih h
      exact ⟨(name, e) :: es, .cons ⟨rfl, he⟩ hes, rfl⟩

end Read

/-! ## 3. Records of a page -/

/-- Two members of a page spell one opcode differently. -/
def Json.Respelled (page : Option UInt8) (ms : Members) : Prop :=
  ∃ name ∈ names ms, ∃ name' ∈ names ms, name ≠ name' ∧
    ∃ k, Table.keyOn page name = .ok k ∧ Table.keyOn page name' = .ok k

/-- A record is of the last member with a name. -/
def Record.IsOfLast (page : Option UInt8) (ms : Members) (name : String) (r : Record) : Prop :=
  ∃ m e, ms.reverse.find? (fun m => m.1.value == some name) = some m ∧ Read.entry m.2 = .ok e ∧
    r.IsOf page (name, e)

namespace Read

variable {page : Option UInt8} {ms : Members} {es : List (String × Entry)} {rs : List Record}

theorem Entries.names (h : Entries ms es) : Json.names ms = es.map Prod.fst := by
  induction h with
  | nil => rfl
  | cons hm _ ih =>
    rw [List.map_cons, ← ih]
    exact List.filterMap_cons_some hm.1

theorem Entries.find? (h : Entries ms es) {name : String} {e : Entry}
    (he : es.lookup name = some e) :
    ∃ m, ms.find? (fun m => m.1.value == some name) = some m ∧ entry m.2 = .ok e := by
  induction h with
  | nil => cases he
  | @cons m first ms es hm _ ih =>
    obtain ⟨key, d⟩ := first
    obtain ⟨hname, hentry⟩ := hm
    rw [Partition.lookup_cons] at he
    rw [List.find?_cons, hname]
    by_cases hkey : name = key
    · rw [if_pos hkey] at he
      cases he
      rw [hkey, beq_self_eq_true]
      exact ⟨m, rfl, hentry⟩
    · rw [if_neg hkey] at he
      have hne : (some key == some name) = false :=
        beq_eq_false_iff_ne.mpr fun h => hkey (Option.some.inj h).symm
      rw [hne]
      exact ih he

/-- **A page whose records have different keys spells no opcode in two ways.** -/
theorem not_respelled {p : Partition} (hpage : IsPage ms p)
    (hrs : List.Forall₂ (Table.RecordOn page) p rs) (hnodup : (rs.map Record.key).Nodup) :
    ¬Json.Respelled page ms := by
  obtain ⟨es, hes, rfl⟩ := members_partitionMember hpage
  obtain ⟨_, hmem, _⟩ := Partition.putAll_spec es (p := []) List.nodup_nil
  have hin : ∀ name ∈ Json.names ms, ∃ e ∈ Partition.putAll es [], e.1 = name := by
    intro name hname
    rw [hes.names] at hname
    exact List.mem_map.mp ((hmem name).mpr (.inl hname))
  have hkeys := Table.keyOn_nodup hrs hnodup
  rintro ⟨name, hname, name', hname', hne, k, hk, hk'⟩
  obtain ⟨e, he, rfl⟩ := hin name hname
  obtain ⟨e', he', rfl⟩ := hin name' hname'
  have heq := List.inj_on_of_nodup_map hkeys he he' (hk.trans hk'.symm)
  exact hne (congrArg Prod.fst heq)

/-- **A page has a record for each of its names**, that of the last member with the name. -/
theorem exists_record {p : Partition} (hpage : IsPage ms p)
    (hrs : List.Forall₂ (Table.RecordOn page) p rs) {name : String} (hname : name ∈ Json.names ms) :
    ∃ r ∈ rs, r.IsOfLast page ms name := by
  obtain ⟨es, hes, rfl⟩ := members_partitionMember hpage
  obtain ⟨_, _, hlookup⟩ := Partition.putAll_spec es (p := []) List.nodup_nil
  have hlast : Entries ms.reverse es.reverse := List.forall₂_reverse_iff.mpr hes
  have hin : name ∈ es.reverse.map Prod.fst := by
    rw [List.map_reverse, List.mem_reverse, ← hes.names]
    exact hname
  have hsome : (es.reverse.lookup name).isSome = true := by
    obtain ⟨e, he, hkey⟩ := List.mem_map.mp hin
    exact List.lookup_isSome_iff.mpr ⟨e, he, beq_iff_eq.mpr hkey.symm⟩
  obtain ⟨e, he⟩ := Option.isSome_iff_exists.mp hsome
  obtain ⟨m, hm, hentry⟩ := hlast.find? he
  have hput : (Partition.putAll es []).lookup name = some e := by
    rw [hlookup, he]
    rfl
  obtain ⟨before, after, hsplit, _⟩ := List.lookup_eq_some_iff.mp hput
  have hmem : (name, e) ∈ Partition.putAll es [] := by
    rw [hsplit]
    exact List.mem_append_right _ List.mem_cons_self
  obtain ⟨i, hi, hget⟩ := List.mem_iff_getElem.mp hmem
  have hi' : i < rs.length := by
    rw [← hrs.length_eq]
    exact hi
  have hrecord := hrs.get hi hi'
  rw [List.get_eq_getElem, List.get_eq_getElem, hget] at hrecord
  exact ⟨rs[i], List.getElem_mem hi', m, e, hm, hentry, hrecord.isOf.1⟩

/-- A page has a record for each name, and loses a member only where a name comes twice. -/
theorem length_records {p : Partition} (hpage : IsPage ms p)
    (hrs : List.Forall₂ (Table.RecordOn page) p rs) :
    rs.length = (Json.names ms).dedup.length ∧ rs.length ≤ ms.length ∧
      (rs.length = ms.length ↔ (Json.names ms).Nodup) := by
  obtain ⟨es, hes, rfl⟩ := members_partitionMember hpage
  have hlength : rs.length = (Json.names ms).dedup.length := by
    rw [← hrs.length_eq, Partition.length_putAll, hes.names]
  have hnames : (Json.names ms).length = ms.length := by
    rw [hes.names, List.length_map, hes.length_eq]
  have hsub := List.dedup_sublist (Json.names ms)
  rw [hlength, ← hnames]
  refine ⟨rfl, hsub.length_le, fun h => ?_, fun h => ?_⟩
  · exact List.dedup_eq_self.mp (hsub.eq_of_length h)
  · rw [List.dedup_eq_self.mpr h]

end Read

/-! ## 4. Tables -/

theorem document_of_ofText {text : String} {v : Json.Placed Json} {d : TableDocument}
    (hv : Json.parse? text = some v) (h : TableDocument.ofText text = .ok d) :
    Read.document v = .ok d := by
  unfold TableDocument.ofText at h
  rw [hv] at h
  dsimp only at h
  cases hd : Read.document v with
  | error fault =>
    rw [hd] at h
    cases h
  | ok d' =>
    rw [hd] at h
    cases h
    rfl

/-- **The records of a table are those of the last members of each name.** A text is no table if
    two members of a page spell one opcode differently. If it is one, each name of a page has a
    record, that of the last member with the name, and there are no others. So a table has as many
    records as its pages have members exactly where no page has a name twice; members that come
    before another one of their name are lost. -/
theorem ofText_pages {text : String} {v : Json.Placed Json} (hv : Json.parse? text = some v) :
    (Json.Respelled none v.value.pages.1 ∨ Json.Respelled (some secondPage) v.value.pages.2 →
      ∃ e, (Table.ofText text).result = .error e) ∧
    ∀ t, (Table.ofText text).result = .ok t →
      t.records.length =
        (Json.names v.value.pages.1).dedup.length + (Json.names v.value.pages.2).dedup.length ∧
      (t.records.length = v.value.pages.1.length + v.value.pages.2.length ↔
        (Json.names v.value.pages.1).Nodup ∧ (Json.names v.value.pages.2).Nodup) ∧
      (∀ name ∈ Json.names v.value.pages.1,
        ∃ r ∈ t.records, r.IsOfLast none v.value.pages.1 name) ∧
      ∀ name ∈ Json.names v.value.pages.2,
        ∃ r ∈ t.records, r.IsOfLast (some secondPage) v.value.pages.2 name := by
  -- what a table says about its two pages, for both halves
  have hpages : ∀ t, (Table.ofText text).result = .ok t → ∃ d : TableDocument, ∃ rs rs',
      Read.IsPage v.value.pages.1 d.plain ∧ Read.IsPage v.value.pages.2 d.paged ∧
      List.Forall₂ (Table.RecordOn none) d.plain rs ∧
      List.Forall₂ (Table.RecordOn (some secondPage)) d.paged rs' ∧
      t.records.Perm (rs ++ rs') ∧ (rs.map Record.key).Nodup ∧ (rs'.map Record.key).Nodup := by
    intro t ht
    obtain ⟨d, hd, hdoc⟩ := Table.ofText_eq_ok.mp ht
    obtain ⟨hplain, hpaged⟩ := Read.document_pages (document_of_ofText hv hd)
    obtain ⟨rs, rs', hrecords⟩ := Table.ofDocument_perm hdoc
    exact ⟨d, rs, rs', hplain, hpaged, hrecords⟩
  constructor
  · intro hrespelled
    cases ht : (Table.ofText text).result with
    | error e => exact ⟨e, rfl⟩
    | ok t =>
      obtain ⟨d, rs, rs', hplain, hpaged, hrs, hrs', _, hnodup, hnodup'⟩ := hpages t ht
      rcases hrespelled with h | h
      · exact absurd h (Read.not_respelled hplain hrs hnodup)
      · exact absurd h (Read.not_respelled hpaged hrs' hnodup')
  · intro t ht
    obtain ⟨d, rs, rs', hplain, hpaged, hrs, hrs', hperm, _, _⟩ := hpages t ht
    obtain ⟨hlen, hle, hiff⟩ := Read.length_records hplain hrs
    obtain ⟨hlen', hle', hiff'⟩ := Read.length_records hpaged hrs'
    have hrecords : t.records.length = rs.length + rs'.length := by
      rw [hperm.length_eq, List.length_append]
    refine ⟨by rw [hrecords, hlen, hlen'], ?_, fun name hname => ?_, fun name hname => ?_⟩
    · rw [← hiff, ← hiff', hrecords]
      omega
    · obtain ⟨r, hr, hlast⟩ := Read.exists_record hplain hrs hname
      exact ⟨r, hperm.mem_iff.mpr (List.mem_append_left _ hr), hlast⟩
    · obtain ⟨r, hr, hlast⟩ := Read.exists_record hpaged hrs' hname
      exact ⟨r, hperm.mem_iff.mpr (List.mem_append_right _ hr), hlast⟩

/-- A table of NOP and HALT under two keys. -/
def twoRows (key key' : String) : String :=
  "[\x7b\"" ++ key ++ "\":[\"NOP\",1,[4],[],[\"-\",\"-\",\"-\",\"-\"]],\"" ++ key' ++
    "\":[\"HALT\",1,[4],[],[\"-\",\"-\",\"-\",\"-\"]]\x7d]"

/-- The names on the first page, and the numbers of members. -/
def pageShape (text : String) : Option (List String × Nat × Nat) :=
  (Json.parse? text).map fun v =>
    (Json.names v.value.pages.1, v.value.pages.1.length, v.value.pages.2.length)

theorem pageShape_of_toList {text : String} {cs : List Char} (h : text.toList = cs) :
    pageShape text = ((Json.tokens? cs).bind (Json.build .value [])).map fun v =>
      (Json.names v.value.pages.1, v.value.pages.1.length, v.value.pages.2.length) := by
  unfold pageShape Json.parse?
  rw [h]

theorem exists_of_pageShape {text : String} {x : List String × Nat × Nat}
    (h : pageShape text = some x) : ∃ v, Json.parse? text = some v ∧
      Json.names v.value.pages.1 = x.1 ∧ v.value.pages.1.length = x.2.1 ∧
      v.value.pages.2.length = x.2.2 := by
  obtain ⟨v, hv, hx⟩ := Option.map_eq_some_iff.mp h
  rw [← hx]
  exact ⟨v, hv, rfl, rfl, rfl⟩

set_option maxRecDepth 10000 in
theorem pageShape_twoRows :
    pageShape (twoRows "06" "06") = some (["06", "06"], 2, 0) ∧
    pageShape (twoRows "06" "0x06") = some (["06", "0x06"], 2, 0) := by
  have piece (cs : List Char) : (String.ofList cs).toList = cs := String.toList_ofList
  constructor
  · refine (pageShape_of_toList (toList_append_of (toList_append_of (toList_append_of
      (toList_append_of (piece _) (piece _)) (piece _)) (piece _)) (piece _))).trans ?_
    rfl
  · refine (pageShape_of_toList (toList_append_of (toList_append_of (toList_append_of
      (toList_append_of (piece _) (piece _)) (piece _)) (piece _)) (piece _))).trans ?_
    rfl

set_option maxRecDepth 10000 in
/-- The entry of NOP is not there any more. -/
theorem ofText_twoRows : (Table.ofText (twoRows "06" "06")).result =
    .ok ⟨[⟨.plain 0x06, "HALT", [], {}, 1, ⟨4, none⟩⟩]⟩ := by
  have piece (cs : List Char) : (String.ofList cs).toList = cs := String.toList_ofList
  refine (Table.ofText_of_toList (toList_append_of (toList_append_of (toList_append_of
      (toList_append_of (piece _) (piece _)) (piece _)) (piece _)) (piece _))).trans ?_
  rfl

/-- Two spellings of `06` are a fault; where it is spelled the same twice, only one of the names
    counts. -/
theorem ofText_pages_twoRows :
    (∃ e, (Table.ofText (twoRows "06" "0x06")).result = .error e) ∧
    ∃ t, (Table.ofText (twoRows "06" "06")).result = .ok t ∧ t.records.length = 1 := by
  constructor
  · obtain ⟨v, hv, hnames, _, _⟩ := exists_of_pageShape pageShape_twoRows.2
    obtain ⟨hfault, _⟩ := ofText_pages hv
    refine hfault (.inl ⟨"06", ?_, "0x06", ?_, by decide, .plain 0x06, by decide, by decide⟩)
    · rw [hnames]
      decide
    · rw [hnames]
      decide
  · obtain ⟨v, hv, hnames, _, hpaged⟩ := exists_of_pageShape pageShape_twoRows.1
    obtain ⟨_, htable⟩ := ofText_pages hv
    obtain ⟨hlen, _⟩ := htable _ ofText_twoRows
    rw [hnames, List.length_eq_zero_iff.mp hpaged] at hlen
    exact ⟨_, ofText_twoRows, hlen⟩

/-- **A table with fewer records than members**: the text has two members on its first page and none
    on the second, and gives one record. -/
theorem ofText_twiceWritten :
    ∃ v t, Json.parse? (twoRows "06" "06") = some v ∧
      (Table.ofText (twoRows "06" "06")).result = .ok t ∧
      v.value.pages.1.length = 2 ∧ v.value.pages.2.length = 0 ∧ t.records.length = 1 := by
  obtain ⟨v, hv, _, hplain, hpaged⟩ := exists_of_pageShape pageShape_twoRows.1
  exact ⟨v, _, hv, ofText_twoRows, hplain, hpaged, rfl⟩

end Sm83Codegen
