import LiveExpr.Proofs.Parts
import LiveExpr.Typing.Unify

/-!
# Values of a type

Which values a declared type holds, and what a check against it reports. A check leads from
a value to parts of it, each with the type that is declared there; a record whose names are
not the declared ones has no such parts. Main statement: `unify_spec`, a check reports
nothing exactly of what the type holds, and otherwise the innermost parts that fail.
-/

namespace LiveExpr

namespace Fields

variable {α : Type}

/-- After a field is set, its name is there beside the others. -/
theorem mem_names_insert {fields : Fields α} {name other : String} {value : α} :
  other ∈ names (fields.insert name value) ↔ other = name ∨ other ∈ names fields
  := by
  induction fields with
  | nil => simp [insert, names]
  | cons pair rest ih =>
    obtain ⟨k, v⟩ := pair
    unfold insert
    split
    · next h =>
      subst h
      simp [names]
    · split
      · simp [names]
      · simp only [names, List.map_cons, List.mem_cons] at ih ⊢
        rw [ih]
        tauto

/-- After fields are set, their names are there beside the others. -/
theorem mem_names_extend {fields : Fields α} {pairs : List (String × α)} {name : String} :
  name ∈ names (fields.extend pairs) ↔ name ∈ pairs.map Prod.fst ∨ name ∈ names fields
  := by
  induction pairs generalizing fields with
  | nil => simp [extend]
  | cons pair rest ih =>
    change name ∈ names (extend (fields.insert pair.1 pair.2) rest) ↔ _
    rw [ih, mem_names_insert, List.map_cons, List.mem_cons]
    tauto

/-- The names of the map of some pairs are the names of the pairs. -/
theorem mem_names_ofPairs {pairs : List (String × α)} {name : String} :
  name ∈ names (ofPairs pairs) ↔ name ∈ pairs.map Prod.fst
  := by
  rw [ofPairs, mem_names_extend]
  exact or_iff_left (List.not_mem_nil)

end Fields

namespace Typing

/-- The columns of the records that a type holds. -/
def columns? (types : TypeTable) : Ty → Option (List (String × Ty))
  | .record columns => some columns
  | .userType name => (findType? types name).map UserType.fields
  | _ => none

/-- Whether a record has the names of some columns. -/
def HasNames (fields : Fields Value) (columns : List (String × Ty)) : Prop :=
  ∀ name, name ∈ Fields.names fields ↔ name ∈ columns.map Prod.fst

/-- The payload of an option, a result or a response, with the type that is declared for
it. -/
def payload? : Value → Ty → Option (Value × Ty)
  | .just value, .option type | .ok value, .result type _ | .error value, .result _ type
  | .response _ _ value, .response type => some (value, type)
  | _, _ => none

/-- The values that a type holds. -/
inductive Inhabits (types : TypeTable) : Value → Ty → Prop where
  | fake {value : Value} {type : Ty} (h : value.isFake = true) : Inhabits types value type
  | any {value : Value} {name : String} : Inhabits types value (.variable name)
  | int {n : Int} : Inhabits types (.int n) .int
  | float {x : Binary64} : Inhabits types (.float x) .float
  | bool {b : Bool} : Inhabits types (.bool b) .bool
  | null : Inhabits types .null .null
  | str {text : String} : Inhabits types (.str text) .str
  | char {text : String} : Inhabits types (.char text) .char
  | date {moment : Timestamp} : Inhabits types (.date moment) .date
  | password {secret : List UInt8} : Inhabits types (.password secret) .password
  | uuid {id : Uuid} : Inhabits types (.uuid id) .uuid
  | bytes {content : List UInt8} : Inhabits types (.bytes content) .bytes
  | db {name : String} {row : Ty} : Inhabits types (.db name) (.db row)
  | named {name : FunctionName} {parameters : List Ty} {result : Ty} :
    Inhabits types (.named name) (.function parameters result)
  | lambda {names : List (NodeId × String)} {scope : List (String × Value)} {body : Expr}
      {parameters : List Ty} {result : Ty} :
    Inhabits types (.lambda names scope body) (.function parameters result)
  | list {items : List Value} {type : Ty} (h : ∀ item ∈ items, Inhabits types item type) :
    Inhabits types (.list items) (.list type)
  | dict {fields : Fields Value} {type : Ty}
      (h : ∀ field ∈ fields, Inhabits types field.2 type) :
    Inhabits types (.record fields) (.dict type)
  /-- A name that is declared twice is held by both declarations. -/
  | record {fields : Fields Value} {type : Ty} {columns : List (String × Ty)}
      (hcolumns : columns? types type = some columns) (hnames : HasNames fields columns)
      (h : ∀ column ∈ columns, ∀ value, Fields.get? column.1 fields = some value →
        Inhabits types value column.2) :
    Inhabits types (.record fields) type
  | nothing {type : Ty} : Inhabits types .nothing (.option type)
  | redirect {url : String} {type : Ty} : Inhabits types (.redirect url) (.response type)
  | payload {value inner : Value} {type t : Ty} (hpayload : payload? value type = some (inner, t))
      (h : Inhabits types inner t) :
    Inhabits types value type

/-- Whether a type declares a type for a direct part of a value, and the name of the part if
it has one. -/
inductive IsPart (types : TypeTable) : Value → Ty → List String → Value → Ty → Prop where
  | item {items : List Value} {item : Value} {type : Ty} (h : item ∈ items) :
    IsPart types (.list items) (.list type) [] item type
  | entry {fields : Fields Value} {name : String} {value : Value} {type : Ty}
      (h : (name, value) ∈ fields) :
    IsPart types (.record fields) (.dict type) [name] value type
  | field {fields : Fields Value} {columns : List (String × Ty)} {name : String}
      {value : Value} {type column : Ty} (hcolumns : columns? types type = some columns)
      (hnames : HasNames fields columns) (hcolumn : (name, column) ∈ columns)
      (hvalue : Fields.get? name fields = some value) :
    IsPart types (.record fields) type [name] value column
  | payload {value inner : Value} {type t : Ty}
      (hpayload : payload? value type = some (inner, t)) :
    IsPart types value type [] inner t

/-- Whether names lead from a value to a value in it, and from the type that is declared for
the one to the type that is declared for the other. -/
inductive Leads (types : TypeTable) : Value → Ty → List String → Value → Ty → Prop where
  | here {value : Value} {type : Ty} : Leads types value type [] value type
  | step {value part inner : Value} {type t t' : Ty} {names path : List String}
      (hpart : IsPart types value type names part t) (hleads : Leads types part t path inner t') :
    Leads types value type (names ++ path) inner t'

/-- Whether a type does not hold a value although its parts are as declared. -/
def IsMisfit (types : TypeTable) (value : Value) (type : Ty) : Prop :=
  ¬ Inhabits types value type
    ∧ ∀ names part t, IsPart types value type names part t → Inhabits types part t

/-- The names of columns that a record lacks. -/
def missingNames (fields : Fields Value) (columns : List (String × Ty)) : List String :=
  (Fields.names (Fields.ofPairs columns)).filter (· ∉ Fields.names fields)

/-- The names of a record that no column has. -/
def extraNames (fields : Fields Value) (columns : List (String × Ty)) : List String :=
  (Fields.names fields).filter (· ∉ Fields.names (Fields.ofPairs columns))

/-- What is wrong with a value that a type does not hold although its parts are as
declared. -/
def misfit (types : TypeTable) : Value → Ty → TypeFault
  | .record fields, .record columns =>
    .fields (missingNames fields columns) (extraNames fields columns)
  | .record fields, .userType name =>
    match findType? types name with
    | some t => .fields (missingNames fields t.fields) (extraNames fields t.fields)
    | none => .unknownType name
  | value, type => .mismatch type value.typeOf

variable {types : TypeTable} {value : Value} {type : Ty}

/-! ### Checks of records -/

section

variable {fields : Fields Value} {columns : List (String × Ty)} {name : String}

/-- The checks of fields go by the names of the fields. -/
theorem names_fieldChecks :
  (fieldChecks types fields).map Prod.fst = Fields.names fields
  := by
  induction fields with
  | nil => rfl
  | cons field rest ih => exact congrArg (field.1 :: ·) ih

theorem get?_fieldChecks :
  Fields.get? name (fieldChecks types fields) = (Fields.get? name fields).map (unify types)
  := by
  induction fields with
  | nil => rfl
  | cons field rest ih =>
    rw [fieldChecks, Fields.get?, Fields.get?, ih]
    split <;> rfl

/-- A name is missing if a column has it and no field. -/
theorem mem_missingNames :
  name ∈ missingNames fields columns
    ↔ name ∈ columns.map Prod.fst ∧ name ∉ Fields.names fields
  := by simp only [missingNames, List.mem_filter, Fields.mem_names_ofPairs, decide_eq_true_eq]

/-- A name is extra if a field has it and no column. -/
theorem mem_extraNames :
  name ∈ extraNames fields columns
    ↔ name ∈ Fields.names fields ∧ name ∉ columns.map Prod.fst
  := by simp only [extraNames, List.mem_filter, Fields.mem_names_ofPairs, decide_eq_true_eq]

/-- The missing names are listed in ascending order. -/
theorem ascending_missingNames :
  (missingNames fields columns).Pairwise (· < ·)
  := (List.pairwise_map.mpr (Fields.ascending_ofPairs columns)).filter _

/-- The extra names are listed in ascending order. -/
theorem ascending_extraNames (h : fields.Ascending) :
  (extraNames fields columns).Pairwise (· < ·)
  := (List.pairwise_map.mpr h).filter _

/-- A record has the names of columns if it lacks none of them and has no other. -/
theorem hasNames_iff :
  HasNames fields columns ↔ missingNames fields columns = [] ∧ extraNames fields columns = []
  := by
  simp only [List.eq_nil_iff_forall_not_mem, mem_missingNames, mem_extraNames, HasNames]
  constructor
  · intro h
    exact ⟨fun name hname => hname.2 ((h name).mpr hname.1),
      fun name hname => hname.2 ((h name).mp hname.1)⟩
  · rintro ⟨hmissing, hextra⟩ name
    exact ⟨fun hname => not_not.mp fun hnot => hextra name ⟨hname, hnot⟩,
      fun hname => not_not.mp fun hnot => hmissing name ⟨hname, hnot⟩⟩

theorem checkColumns_fieldChecks :
  checkColumns (fieldChecks types fields) columns
    = if (missingNames fields columns).isEmpty && (extraNames fields columns).isEmpty then
        columns.flatMap fun column =>
          match Fields.get? column.1 fields with
          | some value => (unify types value column.2).map (.within column.1)
          | none => []
      else [.atRoot (.fields (missingNames fields columns) (extraNames fields columns))]
  := by
  simp only [checkColumns, names_fieldChecks, get?_fieldChecks]
  congr 2
  funext column
  cases Fields.get? column.1 fields <;> rfl

/-- Other names than the declared ones are the one error of a record. -/
theorem checkColumns_of_not_hasNames (h : ¬ HasNames fields columns) :
  checkColumns (fieldChecks types fields) columns
    = [.atRoot (.fields (missingNames fields columns) (extraNames fields columns))]
  := by
  rw [checkColumns_fieldChecks, if_neg]
  simpa [hasNames_iff] using h

/-- Where the names are right, the errors of a record are those of its columns, within the
names. -/
theorem mem_checkColumns (h : HasNames fields columns) {e : TypeError} :
  e ∈ checkColumns (fieldChecks types fields) columns
    ↔ ∃ column ∈ columns, ∃ value, Fields.get? column.1 fields = some value
      ∧ ∃ inner ∈ unify types value column.2, inner.within column.1 = e
  := by
  rw [checkColumns_fieldChecks, if_pos (by simpa [hasNames_iff] using h), List.mem_flatMap]
  refine exists_congr fun column => and_congr_right fun _ => ?_
  cases Fields.get? column.1 fields <;> simp

end

/-! ### One step of a check -/

attribute [local simp] unify unifyItems unifyFields fits payload?

/-- The errors of a list are those of its items. -/
theorem mem_unifyItems {items : List Value} {e : TypeError} :
  e ∈ unifyItems types items type ↔ ∃ item ∈ items, e ∈ unify types item type
  := by
  induction items with
  | nil => simp
  | cons item rest ih => simp [ih]

/-- The errors of a dictionary are those of its values, within their keys. -/
theorem mem_unifyFields {fields : Fields Value} {e : TypeError} :
  e ∈ unifyFields types fields type
    ↔ ∃ field ∈ fields, ∃ inner ∈ unify types field.2 type, inner.within field.1 = e
  := by
  induction fields with
  | nil => simp
  | cons field rest ih => simp [ih]

/-- Whether a value is refused without a look at parts. -/
structure IsRefused (types : TypeTable) (value : Value) (type : Ty) : Prop where
  errors : unify types value type = [.atRoot (misfit types value type)]
  not_inhabits : ¬ Inhabits types value type
  no_parts : ∀ names part t, ¬ IsPart types value type names part t

/-- Whether a value is accepted or refused for its parts. -/
structure IsSplit (types : TypeTable) (value : Value) (type : Ty) : Prop where
  mem_iff : ∀ e, e ∈ unify types value type ↔ ∃ names part t,
    IsPart types value type names part t
      ∧ ∃ inner ∈ unify types part t, ⟨names ++ inner.path, inner.fault⟩ = e
  inhabits_iff : Inhabits types value type ↔ ∀ names part t,
    IsPart types value type names part t → Inhabits types part t

/-- A list is checked by its items. -/
theorem isSplit_list {items : List Value} :
  IsSplit types (.list items) (.list type)
  where
  mem_iff e := by
    rw [unify, mem_unifyItems]
    constructor
    · rintro ⟨item, hitem, he⟩
      exact ⟨[], item, type, .item hitem, e, he, rfl⟩
    · rintro ⟨names, part, t, hpart, inner, hinner, rfl⟩
      cases hpart with
      | item hitem => exact ⟨_, hitem, hinner⟩
      | payload hpayload => cases hpayload
  inhabits_iff := by
    constructor
    · intro h names part t hpart
      cases hpart with
      | payload hpayload => cases hpayload
      | item hitem =>
        cases h with
        | fake hfake => cases hfake
        | payload hpayload => cases hpayload
        | list h => exact h _ hitem
    · exact fun h => .list fun item hitem => h _ _ _ (.item hitem)

/-- A dictionary is checked by its values. -/
theorem isSplit_dict {fields : Fields Value} :
  IsSplit types (.record fields) (.dict type)
  where
  mem_iff e := by
    rw [unify, mem_unifyFields]
    constructor
    · rintro ⟨field, hfield, inner, hinner, rfl⟩
      exact ⟨[field.1], field.2, type, .entry hfield, inner, hinner, rfl⟩
    · rintro ⟨names, part, t, hpart, inner, hinner, rfl⟩
      cases hpart with
      | entry hfield => exact ⟨_, hfield, inner, hinner, rfl⟩
      | field hcolumns => cases hcolumns
      | payload hpayload => cases hpayload
  inhabits_iff := by
    constructor
    · intro h names part t hpart
      cases hpart with
      | field hcolumns => cases hcolumns
      | payload hpayload => cases hpayload
      | entry hfield =>
        cases h with
        | fake hfake => cases hfake
        | record hcolumns => cases hcolumns
        | payload hpayload => cases hpayload
        | dict h => exact h _ hfield
    · exact fun h => .dict fun field hfield => h _ _ _ (.entry hfield)

/-- A wrapped value inhabits a type if the value inhabits the type within. -/
theorem inhabits_payload_iff {inner : Value} {t : Ty}
    (h : payload? value type = some (inner, t)) :
  Inhabits types value type ↔ Inhabits types inner t
  := by
  constructor
  · intro hvalue
    cases hvalue with
    | payload hpayload hinner =>
      rw [h] at hpayload
      cases hpayload
      exact hinner
    | fake hfake =>
      cases value with
      | incomplete | failure | errorRail => simp at h
      | _ => cases hfake
    | _ => simp at h
  · exact .payload h

/-- The only part of a wrapped value is the value, under the same path. -/
theorem isPart_payload_iff {inner part : Value} {t t' : Ty} {names : List String}
    (h : payload? value type = some (inner, t)) :
  IsPart types value type names part t' ↔ names = [] ∧ part = inner ∧ t' = t
  := by
  constructor
  · intro hpart
    cases hpart with
    | payload hpayload =>
      rw [h] at hpayload
      cases hpayload
      exact ⟨rfl, rfl, rfl⟩
    | _ => simp at h
  · rintro ⟨rfl, rfl, rfl⟩
    exact .payload h

theorem isSplit_payload {inner : Value} {t : Ty} (h : payload? value type = some (inner, t)) :
  IsSplit types value type
  where
  mem_iff e := by
    have hunify : unify types value type = unify types inner t := by
      unfold payload? at h
      split at h <;> cases h <;> simp
    simp only [hunify, isPart_payload_iff h]
    constructor
    · exact fun he => ⟨[], inner, t, ⟨rfl, rfl, rfl⟩, e, he, rfl⟩
    · rintro ⟨_, _, _, ⟨rfl, rfl, rfl⟩, e, he, rfl⟩
      exact he
  inhabits_iff := by
    simp only [inhabits_payload_iff h, isPart_payload_iff h]
    constructor
    · rintro hinner _ _ _ ⟨rfl, rfl, rfl⟩
      exact hinner
    · exact fun hinner => hinner _ _ _ ⟨rfl, rfl, rfl⟩

section

variable {fields : Fields Value} {columns : List (String × Ty)}

/-- A record is checked against the columns of its type. -/
theorem unify_columns (h : columns? types type = some columns) :
  unify types (.record fields) type = checkColumns (fieldChecks types fields) columns
  := by
  unfold columns? at h
  split at h
  · cases h
    simp
  · obtain ⟨t, ht, rfl⟩ := Option.map_eq_some_iff.mp h
    simp [ht]
  · cases h

/-- A record without the right names is told which are missing and which are extra. -/
theorem misfit_columns (h : columns? types type = some columns) :
  misfit types (.record fields) type
    = .fields (missingNames fields columns) (extraNames fields columns)
  := by
  unfold columns? at h
  split at h
  · cases h
    rfl
  · obtain ⟨t, ht, rfl⟩ := Option.map_eq_some_iff.mp h
    simp only [misfit, ht]
  · cases h

/-- A record inhabits a type with columns if it has just their names and each value inhabits
the type of its column. -/
theorem inhabits_columns_iff (h : columns? types type = some columns) :
  Inhabits types (.record fields) type ↔ HasNames fields columns
    ∧ ∀ column ∈ columns, ∀ value, Fields.get? column.1 fields = some value →
      Inhabits types value column.2
  := by
  constructor
  · intro hrecord
    cases hrecord with
    | record hcolumns hnames hfields =>
      rw [h] at hcolumns
      cases hcolumns
      exact ⟨hnames, hfields⟩
    | fake hfake => cases hfake
    | payload hpayload => simp at hpayload
    | _ => cases h
  · exact fun ⟨hnames, hfields⟩ => .record h hnames hfields

/-- The parts of a record with the right names are its values, each under its name. -/
theorem isPart_columns_iff {names : List String} {part : Value} {t : Ty}
    (h : columns? types type = some columns) :
  IsPart types (.record fields) type names part t ↔ HasNames fields columns
    ∧ ∃ name, (name, t) ∈ columns ∧ Fields.get? name fields = some part ∧ names = [name]
  := by
  constructor
  · intro hpart
    cases hpart with
    | field hcolumns hnames hcolumn hvalue =>
      rw [h] at hcolumns
      cases hcolumns
      exact ⟨hnames, _, hcolumn, hvalue, rfl⟩
    | payload hpayload => simp at hpayload
    | entry => cases h
  · rintro ⟨hnames, name, hcolumn, hvalue, rfl⟩
    exact .field h hnames hcolumn hvalue

/-- A record without the right names is refused as a whole. -/
theorem isRefused_columns (h : columns? types type = some columns)
    (hnames : ¬ HasNames fields columns) :
  IsRefused types (.record fields) type
  where
  errors := by rw [unify_columns h, checkColumns_of_not_hasNames hnames, misfit_columns h]
  not_inhabits hrecord := hnames ((inhabits_columns_iff h).mp hrecord).1
  no_parts _ _ _ hpart := hnames ((isPart_columns_iff h).mp hpart).1

/-- A record with the right names is checked by its values. -/
theorem isSplit_columns (h : columns? types type = some columns)
    (hnames : HasNames fields columns) :
  IsSplit types (.record fields) type
  where
  mem_iff e := by
    rw [unify_columns h, mem_checkColumns hnames]
    constructor
    · rintro ⟨column, hcolumn, value, hvalue, inner, hinner, rfl⟩
      exact ⟨[column.1], value, column.2, .field h hnames hcolumn hvalue, inner, hinner, rfl⟩
    · rintro ⟨names, part, t, hpart, inner, hinner, rfl⟩
      obtain ⟨-, name, hcolumn, hvalue, rfl⟩ := (isPart_columns_iff h).mp hpart
      exact ⟨(name, t), hcolumn, part, hvalue, inner, hinner, rfl⟩
  inhabits_iff := by
    rw [inhabits_columns_iff h]
    constructor
    · rintro ⟨-, hfields⟩ names part t hpart
      obtain ⟨-, name, hcolumn, hvalue, rfl⟩ := (isPart_columns_iff h).mp hpart
      exact hfields (name, t) hcolumn part hvalue
    · intro hparts
      use hnames
      exact fun column hcolumn value hvalue =>
        hparts [column.1] value column.2 (.field h hnames hcolumn hvalue)

end

/-- A record is refused if its type is not declared. -/
theorem isRefused_unknownType {fields : Fields Value} {name : TypeName}
    (h : findType? types name = none) :
  IsRefused types (.record fields) (.userType name)
  := by
  have hcolumns : columns? types (.userType name) = none := by rw [columns?, h, Option.map_none]
  constructor
  · simp [misfit, h]
  · intro hrecord
    cases hrecord with
    | fake hfake => cases hfake
    | record hsome => rw [hcolumns] at hsome; cases hsome
    | payload hpayload => cases hpayload
  · intro names part t hpart
    cases hpart with
    | field hsome => rw [hcolumns] at hsome; cases hsome
    | payload hpayload => cases hpayload

/-! ### Values without parts -/

/-- What fits a type inhabits it. -/
theorem inhabits_of_fits (h : fits type value = true) :
  Inhabits types value type
  := by
  unfold fits at h
  split at h
  · exact .fake rfl
  · exact .fake rfl
  · exact .fake rfl
  · exact .any
  · exact .int
  · exact .float
  · exact .bool
  · exact .null
  · exact .str
  · exact .char
  · exact .date
  · exact .password
  · exact .uuid
  · exact .bytes
  · exact .db
  · exact .named
  · exact .lambda
  · exact .nothing
  · exact .redirect
  · cases h

/-- Anything fits a type variable. -/
theorem fits_any {name : String} :
  fits (.variable name) value = true
  := by cases value <;> simp

/-- A fake value fits any type. -/
theorem fits_of_isFake (h : value.isFake = true) :
  fits type value = true
  := by
  cases value with
  | incomplete | failure | errorRail => simp
  | _ => cases h

/-- Under a type that declares nothing for parts of a value, the value is accepted or refused
as a whole. -/
theorem cases_of_fits (hlist : ∀ items t, value = .list items → type ≠ .list t)
    (hdict : ∀ fields t, value = .record fields → type ≠ .dict t)
    (hrecord : ∀ fields columns, value = .record fields → type ≠ .record columns)
    (huser : ∀ fields name, value = .record fields → type ≠ .userType name)
    (hpayload : payload? value type = none)
    (hunify : unify types value type
      = if fits type value then [] else [.atRoot (.mismatch type value.typeOf)]) :
  IsRefused types value type ∨ IsSplit types value type
  := by
  have hcolumns : ∀ fields columns, value = .record fields →
      columns? types type ≠ some columns := by
    rintro fields columns rfl h
    unfold columns? at h
    split at h
    · exact hrecord _ _ rfl rfl
    · exact huser _ _ rfl rfl
    · cases h
  have hparts : ∀ names part t, ¬ IsPart types value type names part t := by
    intro names part t hpart
    cases hpart with
    | item => exact hlist _ _ rfl rfl
    | entry => exact hdict _ _ rfl rfl
    | field h => exact hcolumns _ _ rfl h
    | payload h => rw [hpayload] at h; cases h
  by_cases hfits : fits type value = true
  · right
    rw [if_pos hfits] at hunify
    constructor
    · intro e
      rw [hunify]
      constructor
      · intro he
        cases he
      · rintro ⟨names, part, t, hpart, -⟩
        exact absurd hpart (hparts names part t)
    · exact iff_of_true (inhabits_of_fits hfits)
        fun names part t hpart => absurd hpart (hparts names part t)
  · left
    constructor
    · rw [hunify, if_neg hfits]
      unfold misfit
      split
      · exact absurd rfl (hrecord _ _ rfl)
      · exact absurd rfl (huser _ _ rfl)
      · rfl
    · intro h
      apply hfits
      cases h with
      | fake hfake => exact fits_of_isFake hfake
      | list => exact absurd rfl (hlist _ _ rfl)
      | dict => exact absurd rfl (hdict _ _ rfl)
      | record h => exact absurd h (hcolumns _ _ rfl)
      | payload h => rw [hpayload] at h; cases h
      | any => exact fits_any
      | _ => rfl
    · exact hparts

/-- A value is accepted or refused as a whole, or for its parts. -/
theorem isRefused_or_isSplit (types : TypeTable) (value : Value) (type : Ty) :
  IsRefused types value type ∨ IsSplit types value type
  := by
  have hrest := @cases_of_fits types value type
  rw [unify.eq_def] at hrest
  split at hrest
  · exact .inr isSplit_list
  · exact .inr isSplit_dict
  · next fields columns =>
    by_cases hnames : HasNames fields columns
    · exact .inr (isSplit_columns rfl hnames)
    · exact .inl (isRefused_columns rfl hnames)
  · next fields name =>
    cases ht : findType? types name with
    | none => exact .inl (isRefused_unknownType ht)
    | some t =>
      have hcolumns : columns? types (.userType name) = some t.fields := by
        rw [columns?, ht, Option.map_some]
      by_cases hnames : HasNames fields t.fields
      · exact .inr (isSplit_columns hcolumns hnames)
      · exact .inl (isRefused_columns hcolumns hnames)
  · exact .inr (isSplit_payload rfl)
  · exact .inr (isSplit_payload rfl)
  · exact .inr (isSplit_payload rfl)
  · exact .inr (isSplit_payload rfl)
  · next hlist hdict hrecord huser hjust hok herror hresponse =>
    apply hrest
    · exact fun items t hv ht => hlist items t hv ht
    · exact fun fields t hv ht => hdict fields t hv ht
    · exact fun fields columns hv ht => hrecord fields columns hv ht
    · exact fun fields name hv ht => huser fields name hv ht
    · unfold payload?
      split
      · exact absurd rfl (hjust _ _ rfl)
      · exact absurd rfl (hok _ _ _ rfl)
      · exact absurd rfl (herror _ _ _ rfl)
      · exact absurd rfl (hresponse _ _ _ _ rfl)
      · rfl
    · rfl

/-! ### Whole checks -/

theorem IsRefused.isMisfit (h : IsRefused types value type) :
  IsMisfit types value type
  := ⟨h.not_inhabits, fun names part t hpart => absurd hpart (h.no_parts names part t)⟩

/-- What is checked by its parts is no misfit itself. -/
theorem IsSplit.not_isMisfit (h : IsSplit types value type) :
  ¬ IsMisfit types value type
  := fun hmisfit => hmisfit.1 (h.inhabits_iff.mpr hmisfit.2)

/-- The parts that are checked are parts of the value. -/
theorem IsPart.mem_parts {names : List String} {part : Value} {t : Ty}
    (h : IsPart types value type names part t) :
  part ∈ value.parts
  := by
  cases h with
  | item hitem => exact hitem
  | entry hentry => exact List.mem_map_of_mem hentry
  | field _ _ _ hvalue =>
    exact Fields.All.get? (p := (· ∈ _)) (fun pair hpair => List.mem_map_of_mem hpair) hvalue
  | payload hpayload =>
    unfold payload? at hpayload
    split at hpayload <;> cases hpayload <;> exact List.mem_cons_self

/-- A path leads to the value itself, or on from one of its parts. -/
theorem leads_iff {path : List String} {inner : Value} {t' : Ty} :
  Leads types value type path inner t' ↔ (path = [] ∧ inner = value ∧ t' = type)
    ∨ ∃ names part t rest, IsPart types value type names part t
      ∧ Leads types part t rest inner t' ∧ path = names ++ rest
  := by
  constructor
  · intro h
    cases h with
    | here => exact .inl ⟨rfl, rfl, rfl⟩
    | step hpart hleads => exact .inr ⟨_, _, _, _, hpart, hleads, rfl⟩
  · rintro (⟨rfl, rfl, rfl⟩ | ⟨names, part, t, rest, hpart, hleads, rfl⟩)
    · exact .here
    · exact .step hpart hleads

/-- A check reports the misfits to which it leads. -/
theorem mem_unify_iff (value : Value) (type : Ty) (e : TypeError) :
  e ∈ unify types value type ↔ ∃ inner t, Leads types value type e.path inner t
    ∧ IsMisfit types inner t ∧ e.fault = misfit types inner t
  := by
  induction value using Value.induction_parts generalizing type e with
  | step value ih =>
    rcases isRefused_or_isSplit types value type with h | h
    · rw [h.errors, List.mem_singleton]
      constructor
      · rintro rfl
        exact ⟨value, type, .here, h.isMisfit, rfl⟩
      · rintro ⟨inner, t, hleads, -, hfault⟩
        rcases leads_iff.mp hleads with ⟨hpath, rfl, rfl⟩ | ⟨names, part, t', -, hpart, -⟩
        · obtain ⟨path, fault⟩ := e
          obtain rfl : path = [] := hpath
          obtain rfl : fault = _ := hfault
          exact rfl
        · exact absurd hpart (h.no_parts names part t')
    · rw [h.mem_iff]
      constructor
      · rintro ⟨names, part, t, hpart, e, he, rfl⟩
        obtain ⟨inner, t', hleads, hmisfit, hfault⟩ := (ih part hpart.mem_parts t e).mp he
        exact ⟨inner, t', .step hpart hleads, hmisfit, hfault⟩
      · rintro ⟨inner, t', hleads, hmisfit, hfault⟩
        rcases leads_iff.mp hleads with
          ⟨-, rfl, rfl⟩ | ⟨names, part, t, rest, hpart, hrest, hpath⟩
        · exact absurd hmisfit h.not_isMisfit
        · refine ⟨names, part, t, hpart, ⟨rest, e.fault⟩, ?_, ?_⟩
          · exact (ih part hpart.mem_parts t _).mpr ⟨inner, t', hrest, hmisfit, hfault⟩
          · rw [← hpath]

/-- A check reports nothing exactly of what the type holds. -/
theorem unify_eq_nil_iff (value : Value) (type : Ty) :
  unify types value type = [] ↔ Inhabits types value type
  := by
  induction value using Value.induction_parts generalizing type with
  | step value ih =>
    rcases isRefused_or_isSplit types value type with h | h
    · rw [h.errors]
      exact iff_of_false (List.cons_ne_nil _ _) h.not_inhabits
    · rw [h.inhabits_iff, List.eq_nil_iff_forall_not_mem]
      constructor
      · intro hnone names part t hpart
        apply (ih part hpart.mem_parts t).mp
        apply List.eq_nil_iff_forall_not_mem.mpr
        intro e he
        exact hnone _ ((h.mem_iff _).mpr ⟨names, part, t, hpart, e, he, rfl⟩)
      · intro hparts e he
        obtain ⟨names, part, t, hpart, inner, hinner, -⟩ := (h.mem_iff e).mp he
        rw [(ih part hpart.mem_parts t).mpr (hparts names part t hpart)] at hinner
        cases hinner

/-- A check reports nothing exactly of what the type holds. Otherwise it reports those parts,
under the names that lead to them, that fail although their own parts do not; and of a
record with other names than the declared ones just the names, in order. -/
theorem unify_spec (types : TypeTable) (value : Value) (type : Ty) :
  (unify types value type = [] ↔ Inhabits types value type)
    ∧ (∀ e, e ∈ unify types value type ↔ ∃ inner t, Leads types value type e.path inner t
        ∧ IsMisfit types inner t ∧ e.fault = misfit types inner t)
    ∧ ∀ fields columns, value = .record fields → columns? types type = some columns →
        ¬ HasNames fields columns → Fields.Ascending fields →
        ∃ missing extra, unify types value type = [.atRoot (.fields missing extra)]
          ∧ missing.Pairwise (· < ·) ∧ extra.Pairwise (· < ·)
          ∧ (∀ name, name ∈ missing
              ↔ name ∈ columns.map Prod.fst ∧ name ∉ Fields.names fields)
          ∧ ∀ name, name ∈ extra
              ↔ name ∈ Fields.names fields ∧ name ∉ columns.map Prod.fst
  := by
  refine ⟨unify_eq_nil_iff value type, mem_unify_iff value type, ?_⟩
  rintro fields columns rfl hcolumns hnames hascending
  use missingNames fields columns, extraNames fields columns
  refine ⟨?_, ascending_missingNames, ascending_extraNames hascending, fun _ => mem_missingNames,
    fun _ => mem_extraNames⟩
  rw [unify_columns hcolumns, checkColumns_of_not_hasNames hnames]

/-- In a tree, a label that is no text is reported under the names that lead to it, and a
branch that lacks its label under its own, with nothing on what else it holds. -/
example :
  let tree : Ty := .userType ⟨"Tree", 0⟩
  let types : TypeTable := [⟨⟨"Tree", 0⟩, [("branches", .list tree), ("label", .str)]⟩]
  let value : Value := .record [("branches", .list [
      .record [("branches", .list []), ("label", .int 1)],
      .record [("branches", .null)]]), ("label", .str "root")]
  (unify types value tree).map TypeError.path = [["branches", "label"], ["branches"]]
  := rfl

end Typing

end LiveExpr
