import RelayRamp.Json.Basic

/-!
# Reading back records

An object whose names are distinct gives each of its fields the value that was written for it, and a tag is found
beside the other fields. A value that is read back from what was written for it is read back as a field too: where
null stands for no value, if it is not written as null.
-/
namespace RelayRamp.Json

/-! ### The fields of an object -/

/-- The members that are written for fields. -/
def written (fields : List (String × Option Json)) : List (String × Json) :=
  fields.filterMap fun (name, value) => value.map (name, ·)

/-- What a field says that was written with a value, or left out. -/
def Cell.ofField : Option Json → Cell
  | some value => given value
  | none => omitted

variable {fields : List (String × Option Json)} {members : List (String × Json)} {name : String}

theorem written_map_some (members : List (String × Json)) :
    written (members.map fun (name, value) => (name, some value)) = members := by
  induction members with
  | nil => rfl
  | cons m rest ih => exact congrArg (m :: ·) ih

theorem filter_written_absent (absent : name ∉ fields.map (·.1)) : (written fields).filter (·.1 == name) = [] := by
  apply List.filter_eq_nil_iff.mpr
  intro m inside
  obtain ⟨⟨other, value⟩, present, same⟩ := List.mem_filterMap.mp inside
  obtain ⟨v, -, rfl⟩ := Option.map_eq_some_iff.mp same
  simp only [beq_iff_eq]
  rintro rfl
  exact absent (List.mem_map_of_mem present)

theorem filter_written {value : Option Json} (distinct : (fields.map (·.1)).Nodup) (inside : (name, value) ∈ fields) :
    (written fields).filter (·.1 == name) = (value.map (name, ·)).toList := by
  induction fields with
  | nil => cases inside
  | cons field rest ih =>
    obtain ⟨other, otherValue⟩ := field
    obtain ⟨fresh, distinct⟩ := List.nodup_cons.mp distinct
    have split : written ((other, otherValue) :: rest) = (otherValue.map (other, ·)).toList ++ written rest := by
      cases otherValue <;> rfl
    rw [split, List.filter_append]
    rcases List.mem_cons.mp inside with first | later
    · cases first
      rw [filter_written_absent fresh, List.append_nil]
      cases value <;> simp
    · have differs : other ≠ name := by
        rintro rfl
        exact fresh (List.mem_map.mpr ⟨_, later, rfl⟩)
      rw [ih distinct later]
      cases otherValue <;> simp [differs]

theorem member_written {value : Option Json} (distinct : (fields.map (·.1)).Nodup) (inside : (name, value) ∈ fields) :
    member name (written fields) = some (.ofField value) := by
  unfold member
  rw [filter_written distinct inside]
  cases value <;> rfl

/-- The cells of an object are its fields as they were written. -/
theorem cells_object {names : List String} (listed : fields.map (·.1) = names) (distinct : names.Nodup) :
    (object fields).cells names = some (fields.map fun field => .ofField field.2) := by
  subst listed
  -- The cells are taken one after the other, so the induction is on the fields that are left.
  have rest (left : List (String × Option Json)) (inside : ∀ field ∈ left, field ∈ fields) :
      (left.map (·.1)).mapM (member · (written fields)) = some (left.map fun field => .ofField field.2) := by
    induction left with
    | nil => rfl
    | cons field left ih =>
      obtain ⟨first, inside⟩ := List.forall_mem_cons.mp inside
      rw [List.map_cons, List.mapM_cons, member_written distinct first, ih inside]
      rfl
  exact rest fields fun _ inside => inside

theorem cells_obj {names : List String} (listed : members.map (·.1) = names) (distinct : names.Nodup) :
    (Json.obj members).cells names = some (members.map fun m => .given m.2) := by
  have same : Json.obj members = object (members.map fun (name, value) => (name, some value)) :=
    congrArg Json.obj (written_map_some members).symm
  have names : (members.map fun (name, value) => (name, some value)).map (·.1) = members.map (·.1) := by
    simp [Function.comp_def]
  rw [same, cells_object (names.trans listed) distinct]
  simp [Function.comp_def, Cell.ofField]

/-- A tag is told from the fields beside it. -/
theorem tagged_obj {tag : String} {names : List String} (listed : members.map (·.1) = names) (fresh : name ∉ names) :
    (Json.obj ((name, .str tag) :: members)).tagged name = some (tag, .obj members) := by
  subst listed
  have others : ∀ m ∈ members, (m.1 == name) = false := by
    intro m inside
    simp only [beq_eq_false_iff_ne]
    rintro rfl
    exact fresh (List.mem_map_of_mem inside)
  have found : member name ((name, .str tag) :: members) = some (.given (.str tag)) := by
    have none : members.filter (·.1 == name) = [] := List.filter_eq_nil_iff.mpr (by simpa using others)
    rw [member, List.filter_cons_of_pos (by simp), none]
  have kept : ((name, Json.str tag) :: members).filter (·.1 != name) = members := by
    rw [List.filter_cons_of_neg (by simp), List.filter_eq_self.mpr]
    simpa using others
  simp only [tagged, found, kept]

/-! ### Values that are read back -/

/-- What is read first is what the rest of the reading goes on with. -/
theorem read_then {α β : Type} {x : Option α} {a : α} {f : α → Option β} {b : β} (read : x = some a)
    (rest : f a = some b) : (x >>= f) = some b :=
  Option.bind_eq_some_iff.mpr ⟨a, read, rest⟩

/-- The value is read back from what is written for it, which is not null. -/
structure ReadsBack {α : Type} (encode : α → Json) (decode : Json → Option α) (a : α) : Prop where
  read : decode (encode a) = some a
  filled : encode a ≠ .null

theorem readsBack_str (s : String) : ReadsBack str asString? s := ⟨rfl, nofun⟩

theorem readsBack_bool (b : Bool) : ReadsBack bool asBool? b := ⟨rfl, nofun⟩

theorem readsBack_nat {bound n : Nat} (small : n < bound) : ReadsBack nat (asBelow? bound) n := by
  constructor
  · have within : 0 ≤ (n : Int) ∧ (n : Int) < bound := by omega
    simp only [nat, asBelow?, if_pos within, Int.toNat_natCast]
  · nofun

section

variable {α : Type} {encode : α → Json} {decode : Json → Option α}

theorem ReadsBack.required {a : α} (h : ReadsBack encode decode a) :
    (Cell.given (encode a)).required decode = some a := h.read

theorem readsBack_optional {o : Option α} (h : ∀ a ∈ o, ReadsBack encode decode a) :
    (Cell.given (.option encode o)).optional decode = some o := by
  cases o with
  | none => rfl
  | some a =>
    obtain ⟨read, filled⟩ := h a rfl
    simp [option, Cell.optional, read]

theorem readsBack_defaulted {o : Option α} (h : ∀ a ∈ o, ReadsBack encode decode a) :
    (Cell.given (.option encode o)).defaulted decode = some o := by
  cases o with
  | none => rfl
  | some a =>
    obtain ⟨read, filled⟩ := h a rfl
    simp [option, Cell.defaulted, read]

theorem readsBack_nullable {o : Option (Option α)} (h : ∀ a, some a ∈ o → ReadsBack encode decode a) :
    (Cell.ofField (o.map (.option encode))).nullable decode = some o := by
  cases o with
  | none => rfl
  | some o =>
    cases o with
    | none => rfl
    | some a =>
      obtain ⟨read, filled⟩ := h a rfl
      simp [option, Cell.ofField, Cell.nullable, read]

end

end RelayRamp.Json
