import CardBattle.Json.Decode
import CardBattle.Script.Run
import Mathlib.Data.List.Forall2
import Mathlib.Data.List.Nodup

/-!
# Forms

A form says which values stand for something. What is written in one way has the form `only` of it;
a record whose fields have defaults is written in several ways, as each of these fields may be left
out where it has its default. Reading such a record finds every field that was given and the default
of the others.
-/

namespace CardBattle.Json

variable {α β : Type} {j : Json} {medium : Medium}

abbrev Form := Json → Prop

/-- A field of a record: its name, the form of its value, and whether it may be left out. -/
structure Field where
  name : String
  form : Form
  omissible : Prop

namespace Field

def given (name : String) (form : Form) : Field :=
  ⟨name, form, False⟩

def defaulted (name : String) (form : Form) (isDefault : Prop) : Field :=
  ⟨name, form, isDefault⟩

/-- What may be found under the name of a field. -/
def Allows (f : Field) : Option Json → Prop
  | some j => f.form j
  | none => f.omissible

end Field

/-- The members of an object whose fields are given in order, some left out. -/
inductive Members : List Field → List (String × Json) → Prop where
  | nil : Members [] []
  | given {f : Field} {j : Json} {fields : List Field} {ms : List (String × Json)} :
      f.form j → Members fields ms → Members (f :: fields) ((f.name, j) :: ms)
  | omitted {f : Field} {fields : List Field} {ms : List (String × Json)} :
      f.omissible → Members fields ms → Members (f :: fields) ms

namespace Form

/-- The form of what is written in one way. -/
def only (j : Json) : Form := fun k => k = j

/-- A value under a name. -/
def tagged (tag : String) (content : Form) : Form := fun k =>
  ∃ j, k = .obj [(tag, j)] ∧ content j

def list (forms : List Form) : Form := fun k =>
  ∃ items, k = .arr items ∧ List.Forall₂ (fun form j => form j) forms items

def option (form : α → Form) : Option α → Form
  | none => only .null
  | some a => form a

def record (fields : List Field) : Form := fun k =>
  ∃ ms, k = .obj ms ∧ Members fields ms

end Form

/-! ### Objects of fields -/

section Members

variable {fields : List Field} {ms : List (String × Json)}

/-- The members of an object have the names of its fields, in their order. -/
theorem Members.names_sublist (h : Members fields ms) :
    (ms.map (·.1)).Sublist (fields.map Field.name) := by
  induction h with
  | nil => exact .slnil
  | given _ _ ih => exact ih.cons_cons _
  | omitted _ _ ih => exact ih.cons _

/-- What is found under the name of a field is what the field allows. -/
theorem Members.allows (h : Members fields ms) (distinct : (fields.map Field.name).Nodup) :
    ∀ f ∈ fields, f.Allows (ms.lookup f.name) := by
  -- Names are distinct, so that a member is found for its own field only, and none for a field that
  -- was left out.
  induction h with
  | nil => exact fun f hf => absurd hf List.not_mem_nil
  | @given g j fields ms written _ ih =>
    obtain ⟨fresh, distinct⟩ := List.nodup_cons.mp distinct
    intro f hf
    rcases List.mem_cons.mp hf with rfl | hf
    · rw [List.lookup_cons_self]
      exact written
    · have other : (f.name == g.name) = false :=
        beq_eq_false_iff_ne.mpr fun same => fresh (same ▸ List.mem_map_of_mem hf)
      rw [List.lookup_cons, other]
      exact ih distinct f hf
  | @omitted g fields ms left rest ih =>
    obtain ⟨fresh, distinct⟩ := List.nodup_cons.mp distinct
    intro f hf
    rcases List.mem_cons.mp hf with rfl | hf
    · have absent : ms.lookup f.name = none := by
        refine List.lookup_eq_none_iff.mpr fun m hm => ?_
        have listed := rest.names_sublist.subset (List.mem_map_of_mem hm)
        exact bne_iff_ne.mpr fun same => fresh (same ▸ listed)
      rw [absent]
      exact left
    · exact ih distinct f hf

/-- An object without repeated names is read as it stands. -/
theorem record?_obj {names : List String} (distinct : (ms.map (·.1)).Nodup) :
    record? names (.obj ms) = some ⟨ms, false⟩ := by
  have once : ∀ name ∈ names, decide ((ms.countP fun m => m.1 = name) ≤ 1) = true := by
    intro name _
    have counted : (ms.countP fun m => m.1 = name) = (ms.map (·.1)).count name := by
      rw [List.count, List.countP_map]
      rfl
    rw [counted]
    exact decide_eq_true (List.nodup_iff_count_le_one.mp distinct name)
  rw [record?, if_pos (List.all_eq_true.mpr once)]

/-- A record is read from an object with the names of its fields. -/
theorem record?_named {names : List String} (named : ms.map (·.1) = names)
    (distinct : names.Nodup) : record? names (.obj ms) = some ⟨ms, false⟩ := by
  subst named
  exact record?_obj distinct

/-- What a reader gets to see of a record: every field that was given, and nothing missing but
omissible fields. -/
theorem Form.record.seen (h : Form.record fields j) (names : List String)
    (named : fields.map Field.name = names) (distinct : names.Nodup) :
    ∃ r : Record Json, record? names j = some r ∧ j = .obj r.fields ∧
      ∀ f ∈ fields, f.Allows (r.fields.lookup f.name) := by
  subst named
  obtain ⟨ms, rfl, members⟩ := h
  exact ⟨⟨ms, false⟩, record?_obj (distinct.sublist members.names_sublist), rfl,
    members.allows distinct⟩

theorem Form.record.ne_null (h : Form.record fields j) : j ≠ .null := by
  obtain ⟨ms, rfl, -⟩ := h
  simp

/-- An object under the name of a case is read as anywhere else. -/
@[simp] theorem caseRecord?_obj {names : List String} :
    caseRecord? medium names (.obj ms) = record? names (.obj ms) := by
  cases medium <;> rfl

end Members

section Fields

variable {r : Record Json} {name : String} {form : Form} {read : Json → Option α} {a default : α}
  {o : Option α}

/-- Fields are read one after another. -/
theorem bind_eq_some_of {x : Option α} {f : α → Option β} {b : β} (first : x = some a)
    (rest : f a = some b) : (x >>= f) = some b :=
  Option.bind_eq_some_iff.mpr ⟨a, first, rest⟩

theorem required_of_lookup (found : r.fields.lookup name = some j)
    (reads : read j = some a) : r.required name read = some a := by
  rw [Record.required, found, Option.bind_some, reads]

theorem optional_of_lookup (found : r.fields.lookup name = some j)
    (reads : nullable? read j = some o) : r.optional name read = some o := by
  rw [Record.optional, found]
  exact reads

/-- A field that is always given can be required. -/
theorem Field.Allows.required (h : (Field.given name form).Allows (r.fields.lookup name))
    (reads : ∀ j, form j → read j = some a) : r.required name read = some a := by
  cases found : r.fields.lookup name with
  | none =>
    rw [found] at h
    exact False.elim h
  | some j =>
    rw [found] at h
    exact required_of_lookup found (reads j h)

/-- A field that may be left out is read with its default. -/
theorem Field.Allows.withDefault
    (h : (Field.defaulted name form (a = default)).Allows (r.fields.lookup name))
    (reads : ∀ j, form j → read j = some a) : r.withDefault name default read = some a := by
  unfold Record.withDefault
  cases found : r.fields.lookup name with
  | none =>
    rw [found] at h
    exact congrArg some (Eq.symm h)
  | some j =>
    rw [found] at h
    exact reads j h

end Fields

/-! ### Plain values, lists and options -/

section Values

variable {read : Json → Option α} {write : α → Json} {form : α → Form} {as : List α} {o : Option α}

theorem reads_only {k : Json} {a : α} (h : read k = some a) :
    ∀ j, Form.only k j → read j = some a :=
  fun _ written => written ▸ h

theorem bool?_bool (b : Bool) : bool? (.bool b) = some b := rfl

theorem string?_str (s : String) : string? (.str s) = some s := rfl

theorem word?_int {n : Int} (small : inWord n = true) : word? (.int n) = some n :=
  if_pos (of_decide_eq_true small)

/-- A number is read back if it has the bits that it may have. -/
theorem nat?_ofNat {bits n : Nat} (small : n < Nat.pow 2 bits) :
    nat? bits (ofNat n) = some n := by
  have below : (n : Int) < Int.pow 2 bits := by
    have cast : ((Nat.pow 2 bits : Nat) : Int) = Int.pow 2 bits := Int.natCast_pow 2 bits
    rw [← cast]
    exact Int.ofNat_lt.mpr small
  exact if_pos ⟨Int.natCast_nonneg n, below⟩

theorem mapM_eq_some_of_forall₂ {β : Type} {read : β → Option α} {bs : List β}
    (rows : List.Forall₂ (fun a b => read b = some a) as bs) : bs.mapM read = some as := by
  induction rows with
  | nil => rfl
  | cons head _ tail =>
    rw [List.mapM_cons, head, tail]
    rfl

/-- A list is read from every form of it if its elements are. -/
theorem list?_of_form {k : Json} (h : Form.list (as.map form) k)
    (reads : ∀ a ∈ as, ∀ j, form a j → read j = some a) : list? read k = some as := by
  obtain ⟨items, rfl, rows⟩ := h
  rw [List.forall₂_map_left_iff] at rows
  exact mapM_eq_some_of_forall₂ <| ((List.forall₂_and_left _ _).mpr ⟨reads, rows⟩).imp
    fun _ j ⟨read, written⟩ => read j written

theorem Form.list_map (written : ∀ a ∈ as, form a (write a)) :
    Form.list (as.map form) (ofList write as) := by
  refine ⟨as.map write, rfl, ?_⟩
  rw [List.forall₂_map_left_iff, List.forall₂_map_right_iff, List.forall₂_same]
  exact written

/-- What undoes a map on every element undoes it on the list. -/
theorem mapM_map {β : Type} {before : α → β} {after : β → Option α}
    (inverse : ∀ a ∈ as, after (before a) = some a) : (as.map before).mapM after = some as :=
  mapM_eq_some_of_forall₂ (List.forall₂_map_right_iff.mpr (List.forall₂_same.mpr inverse))

theorem list?_ofList (reads : ∀ a ∈ as, read (write a) = some a) :
    list? read (ofList write as) = some as :=
  mapM_map reads

theorem holds_of_all {p : α → Bool} (h : o.all p = true) : ∀ a ∈ o, p a = true := by
  rintro a rfl
  exact h

/-- What may be missing is read from every form of it, unless what is there is written as null. -/
theorem nullable?_of_form {k : Json} (h : Form.option form o k)
    (present : ∀ a ∈ o, ¬ form a .null) (reads : ∀ a ∈ o, ∀ j, form a j → read j = some a) :
    nullable? read k = some o := by
  cases o with
  | none =>
    cases h
    rfl
  | some a =>
    have some_read : (read k).map some = some (some a) := by rw [reads a rfl k h]; rfl
    cases k with
    | null => exact absurd h (present a rfl)
    | _ => exact some_read

theorem nullable?_ofOption (present : ∀ a, write a ≠ .null)
    (reads : ∀ a ∈ o, read (write a) = some a) : nullable? read (ofOption write o) = some o := by
  have written : Form.option (fun a => Form.only (write a)) o (ofOption write o) := by
    cases o <;> rfl
  exact nullable?_of_form written (fun a _ null => present a null.symm)
    fun a ha => reads_only (reads a ha)

end Values

end CardBattle.Json
