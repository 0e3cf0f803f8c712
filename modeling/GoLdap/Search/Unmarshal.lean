import GoLdap.DN.Model
import GoLdap.Go.Stateful
import GoLdap.Go.Strconv
import GoLdap.Search.Model

/-!
# Search.Unmarshal — filling a struct from an entry (`search.go`)

`Unmarshal` walks over the fields of the struct its argument points to.  A field is a type and a content of that type; what
`reflect` tells about a field (name, tag, whether it is exported, type) is a `StructField`.  A field whose attribute has
values is overwritten, except for `[]string` and `[]*DN`: the values are appended to what is in them.

* `effect_unmarshalField`: what a call does to a field of each type.
* `unmarshalFields_eq_ok`: the loop succeeds exactly if every exported field is filled.
* `Entry.noLeak_iff`: the struct types for which nothing of the earlier contents shows in the fields that were filled.

`ber.ParseGeneralizedTime`, `ber.ReadPacket` and the size of an `int` are parameters.  Of a pointer, what it points to is
modelled.
-/

namespace GoLdap

open Go

/-! ## Fields -/

/-- The type of a field, as the switch of `Unmarshal` tells them apart. -/
inductive FieldType where
  | string
  | stringPtr
  | strings
  | int
  | int64
  | bytes
  | time
  | dn
  | dns
  /-- A defined type whose kind is `reflect.String`. -/
  | stringKind (name : GoString)
  | other (name : GoString)
  deriving DecidableEq

/-- The contents of a field. -/
abbrev FieldType.Value (Time : Type) : FieldType → Type
  | .string => GoString
  | .stringPtr => Option GoString
  | .strings => List GoString
  | .int => ℤ
  | .int64 => Int64
  | .bytes => GoString
  | .time => Time
  | .dn => Option DN
  | .dns => List (Option DN)
  | .stringKind _ => GoString
  | .other _ => GoString

/-- The name of the type, as `%v` prints it. -/
def FieldType.name : FieldType → GoString
  | .string => str "string"
  | .stringPtr => str "*string"
  | .strings => str "[]string"
  | .int => str "int"
  | .int64 => str "int64"
  | .bytes => str "[]uint8"
  | .time => str "time.Time"
  | .dn => str "*ldap.DN"
  | .dns => str "[]*ldap.DN"
  | .stringKind name => name
  | .other name => name

/-- What `Unmarshal` reads of a `reflect.StructField`. -/
structure StructField where
  name : GoString
  /-- The tag under the key `ldap`, if there is one. -/
  tag : Option GoString
  /-- Empty if the field is exported. -/
  pkgPath : GoString
  type : FieldType
  deriving DecidableEq

/-- The attribute of a field, and whether it may be omitted. -/
def readTag (f : StructField) : GoString × Bool :=
  match f.tag with
  | none => (f.name, false)
  | some val =>
    match split (ch ',') val with
    -- `strings.Split` gives at least one string
    | [] => ([], false)
    | [name, option] => (name, option = str "omitempty")
    | name :: _ => (name, false)

/-- A field of a struct with its contents. -/
structure Field (Time : Type) where
  ft : StructField
  fv : ft.type.Value Time

variable {Time : Type}

/-- The type of a struct. -/
def structType (fields : List (Field Time)) : List StructField := fields.map Field.ft

/-- The argument of `Unmarshal`. -/
inductive Target (Time : Type) where
  /-- Not a pointer. -/
  | value (kind : GoString)
  /-- A pointer to something else than a struct. -/
  | pointer (kind : GoString)
  | struct (fields : List (Field Time))

/-! ## `UnmarshalFunc` -/

/-- The first attribute with exactly that name counts. -/
def Entry.getAttributeValues (e : Entry) (attributeName : GoString) : List GoString :=
  match e.attributes.find? fun attr => attr.name = attributeName with
  | some attr => attr.values
  | none => []

/-- The loop of `UnmarshalFunc`.  It ends at the first field that fails; what was written before stays. -/
def unmarshalFields (fn : (ft : StructField) → Stateful (ft.type.Value Time) Error Unit) :
    List (Field Time) → Outcome Error Unit × List (Field Time)
  | [] => (.ok (), [])
  | f :: rest =>
    if f.ft.pkgPath ≠ [] then
      let (outcome, rest') := unmarshalFields fn rest
      (outcome, f :: rest')
    else
      match (fn f.ft).run f.fv with
      | (.ok (), fv) =>
        let (outcome, rest') := unmarshalFields fn rest
        (outcome, ⟨f.ft, fv⟩ :: rest')
      | (outcome, fv) => (outcome, ⟨f.ft, fv⟩ :: rest)

def Entry.unmarshalFunc (e : Entry) (fn : Entry → (ft : StructField) → Stateful (ft.type.Value Time) Error Unit) :
    Stateful (Target Time) Error Unit where
  run
    | .value kind => (.err (.fmt "ldap: cannot use %s, expected pointer to a struct" kind), .value kind)
    | .pointer kind => (.err (.fmt "ldap: expected pointer to a struct, got %s" kind), .pointer kind)
    | .struct fields =>
      let (outcome, fields') := unmarshalFields (fn e) fields
      (outcome, .struct fields')

/-! ## `Unmarshal` -/

/-- What `Unmarshal` uses from outside the repository. -/
structure Decoders (Time : Type) where
  parseGeneralizedTime : GoString → Except Error Time
  readPacket : GoString → Except Error (GoString × GoString)
  /-- The bits of an `int`. -/
  intSize : ℕ

variable (D : Decoders Time) (e : Entry)

def errIntField (value : GoString) : Error := .fmt "ldap: could not parse value '%s' into int field" value

def errTimeField (value : GoString) : Error := .fmt "ldap: could not parse value '%s' into time.Time field" value

def errDNField (value : GoString) : Error := .fmt "ldap: could not parse value '%s' into *ldap.DN field" value

def errFieldType (type : FieldType) : Error :=
  .fmt ("ldap: expected field to be of type string, *string, []string, int, int64, []byte, *DN, []*DN or time.Time, " ++
    "got %v") type.name

/-- `ParseDN` in the loop over the values. -/
def parseItem (item : GoString) : Outcome Error (Option DN) :=
  match parseDN D.readPacket item with
  | .error _ => .err (errDNField item)
  | .ok dn => .ok (some dn)

/-- The switch of `Unmarshal` for the values `value :: rest`. -/
def fillField (value : GoString) (rest : List GoString) : (type : FieldType) → Stateful (type.Value Time) Error Unit
  | .strings => .appendEach .ok (value :: rest)
  | .string => .modify fun _ => value
  | .stringPtr => .modify fun _ => some value
  | .bytes => .modify fun _ => value
  | .int => .store ((fun n : ℤ => n.bmod (2 ^ D.intSize)) <$> parseInt value) (errIntField value)
  | .int64 => .store (Int64.ofInt <$> parseInt value) (errIntField value)
  | .time => .store (D.parseGeneralizedTime value) (errTimeField value)
  | .dn => .store (some <$> parseDN D.readPacket value) (errDNField value)
  | .dns => .appendEach (parseItem D) (value :: rest)
  | .stringKind name => .fail (errFieldType (.stringKind name))
  | .other name => .fail (errFieldType (.other name))

/-- `fv.SetString`, which panics unless the kind of the field is `reflect.String`. -/
def setString (s : GoString) : (type : FieldType) → Stateful (type.Value Time) Error Unit
  | .string | .stringKind _ => .modify fun _ => s
  | _ => .lift .panic

/-- The function that `Unmarshal` gives to `UnmarshalFunc`. -/
def unmarshalField (ft : StructField) : Stateful (ft.type.Value Time) Error Unit :=
  let fieldTag := (readTag ft).1
  if fieldTag = str "dn" then setString e.dn ft.type
  else
    match e.getAttributeValues fieldTag with
    | [] => pure ()
    | value :: rest => fillField D value rest ft.type

def Entry.unmarshal : Stateful (Target Time) Error Unit := e.unmarshalFunc (unmarshalField D)

/-! ## What happens to one field -/

/-- The types of fields that are appended to. -/
def FieldType.Slice : FieldType → Prop
  | .strings | .dns => True
  | _ => False

/-- How many values a field holds, if it is one that is appended to. -/
def FieldType.len : (type : FieldType) → type.Value Time → ℕ
  | .strings, l => l.length
  | .dns, l => l.length
  | _, _ => 0

/-- The field is exported and its attribute has a value in the entry. -/
def StructField.Present (ft : StructField) : Prop := ft.pkgPath = [] ∧ e.getAttributeValues (readTag ft).1 ≠ []

/-- What a call can do to a field whose attribute has the values. -/
inductive Effect (values : List GoString) {type : FieldType} (x : Stateful (type.Value Time) Error Unit) : Prop where
  | fails (h : x.Fails)
  | keeps (hnone : values = []) (h : x.Keeps)
  | sets (hslice : ¬ type.Slice) (h : x.Sets)
  | grows (hsome : values ≠ []) (hslice : type.Slice)
    (h : ∀ v, ∃ w, x.run v = (.ok (), w) ∧ type.len v < type.len w)

theorem Effect.of_fails_or_sets {values : List GoString} {type : FieldType} {x : Stateful (type.Value Time) Error Unit}
    (hslice : ¬ type.Slice) (h : x.Fails ∨ x.Sets) : Effect values x := h.elim .fails (.sets hslice)

theorem effect_fillField (value : GoString) (rest : List GoString) (type : FieldType) :
    Effect (value :: rest) (fillField D value rest type) := by
  cases type with
  | strings =>
    obtain h | h := Stateful.fails_or_grows (.ok : GoString → Outcome Error GoString) value rest
    · exact .fails h
    · exact .grows (List.cons_ne_nil _ _) trivial h
  | dns =>
    obtain h | h := Stateful.fails_or_grows (parseItem D) value rest
    · exact .fails h
    · exact .grows (List.cons_ne_nil _ _) trivial h
  | string => exact .sets not_false (Stateful.sets_modify _)
  | stringPtr => exact .sets not_false (Stateful.sets_modify _)
  | bytes => exact .sets not_false (Stateful.sets_modify _)
  | int => exact .of_fails_or_sets not_false (Stateful.fails_or_sets_store _ _)
  | int64 => exact .of_fails_or_sets not_false (Stateful.fails_or_sets_store _ _)
  | time => exact .of_fails_or_sets not_false (Stateful.fails_or_sets_store _ _)
  | dn => exact .of_fails_or_sets not_false (Stateful.fails_or_sets_store _ _)
  | stringKind name => exact .fails (Stateful.fails_fail _)
  | other name => exact .fails (Stateful.fails_fail _)

theorem effect_setString (values : List GoString) (s : GoString) (type : FieldType) :
    Effect values (setString s type : Stateful (type.Value Time) Error Unit) := by
  cases type with
  | string => exact .sets not_false (Stateful.sets_modify _)
  | stringKind name => exact .sets not_false (Stateful.sets_modify _)
  | _ => exact .fails Stateful.fails_panic

theorem effect_unmarshalField (ft : StructField) :
    Effect (e.getAttributeValues (readTag ft).1) (unmarshalField D e ft) := by
  rw [unmarshalField]
  split
  · exact effect_setString _ _ _
  · split
    case _ hnone => exact .keeps hnone fun _ => rfl
    case _ value rest hvalues =>
      rw [hvalues]
      exact effect_fillField D value rest ft.type

/-! ## What happens to the struct -/

section Loop

variable (fn : (ft : StructField) → Stateful (ft.type.Value Time) Error Unit)

/-- What the loop has made of a field, if it succeeds. -/
inductive Filled : Field Time → Field Time → Prop where
  | skipped {f : Field Time} (h : f.ft.pkgPath ≠ []) : Filled f f
  | filled {ft : StructField} {v w : ft.type.Value Time} (h : ft.pkgPath = []) (hrun : (fn ft).run v = (.ok (), w)) :
    Filled ⟨ft, v⟩ ⟨ft, w⟩

variable {fn} {f f' : Field Time} {rest fields fields' : List (Field Time)}

theorem Filled.ft_eq (h : Filled fn f f') : f'.ft = f.ft := by
  cases h with
  | skipped h => rfl
  | filled h hrun => rfl

theorem filled_iff_of_unexported (h : f.ft.pkgPath ≠ []) : Filled fn f f' ↔ f' = f := by
  constructor
  · rintro (_ | ⟨hexported, -⟩)
    · rfl
    · exact absurd hexported h
  · rintro rfl
    exact .skipped h

theorem filled_iff_of_exported (h : f.ft.pkgPath = []) :
    Filled fn f f' ↔ ∃ fv, (fn f.ft).run f.fv = (.ok (), fv) ∧ f' = ⟨f.ft, fv⟩ := by
  constructor
  · rintro (hunexported | ⟨-, hrun⟩)
    · exact absurd h hunexported
    · exact ⟨_, hrun, rfl⟩
  · rintro ⟨fv, hrun, rfl⟩
    exact .filled h hrun

/-- The loop over one more field. -/
theorem unmarshalFields_cons : unmarshalFields fn (f :: rest) = (.ok (), fields') ↔
    ∃ f' rest', Filled fn f f' ∧ unmarshalFields fn rest = (.ok (), rest') ∧ fields' = f' :: rest' := by
  by_cases h : f.ft.pkgPath = []
  · simp only [filled_iff_of_exported h]
    rw [unmarshalFields, if_neg (not_not.mpr h)]
    grind
  · simp only [filled_iff_of_unexported h]
    rw [unmarshalFields, if_pos h]
    grind

/-- The loop succeeds exactly if every exported field is filled. -/
theorem unmarshalFields_eq_ok :
    unmarshalFields fn fields = (.ok (), fields') ↔ List.Forall₂ (Filled fn) fields fields' := by
  induction fields generalizing fields' with
  | nil => simp [unmarshalFields, eq_comm]
  | cons f rest ih => simp only [unmarshalFields_cons, List.forall₂_cons_left_iff, ih]

theorem structType_eq_of_filled (h : List.Forall₂ (Filled fn) fields fields') : structType fields' = structType fields := by
  induction h with
  | nil => rfl
  | cons hfilled _ ih => exact congrArg₂ List.cons hfilled.ft_eq ih

end Loop

/-! ## Earlier contents -/

section Leak

variable {D e} {f f' g g' : Field Time} {s s' t t' : List (Field Time)}

/-- Whether a field is filled does not depend on its contents. -/
theorem exists_filled (hf : Filled (unmarshalField D e) f f') (hft : g.ft = f.ft) :
    ∃ g', Filled (unmarshalField D e) g g' := by
  obtain ⟨ft, v⟩ := g
  cases hf with
  | skipped h => exact ⟨_, .skipped (hft ▸ h)⟩
  | filled h hrun =>
    subst hft
    obtain hfails | ⟨-, hkeeps⟩ | ⟨-, w, hw⟩ | ⟨-, -, hgrows⟩ := effect_unmarshalField D e ft
    · exact absurd hrun (hfails.ne_ok _ _)
    · exact ⟨_, .filled h (hkeeps v)⟩
    · exact ⟨_, .filled h (hw v)⟩
    · obtain ⟨w, hw, -⟩ := hgrows v
      exact ⟨_, .filled h hw⟩

/-- The field holds the same in both structs, if its attribute has a value. -/
def Agree (e : Entry) (f g : Field Time) : Prop := f.ft.Present e → f = g

/-- A field that holds the same before and after it is filled is not one that is appended to. -/
theorem Filled.not_slice (hf : Filled (unmarshalField D e) f f') (hagree : Agree e f f') (hpresent : f.ft.Present e) :
    ¬ f.ft.type.Slice := by
  intro hslice
  obtain rfl := hagree hpresent
  obtain ⟨ft, v⟩ := f
  obtain ⟨fv, hrun, hself⟩ := (filled_iff_of_exported hpresent.1).mp hf
  cases hself
  obtain hfails | ⟨hnone, -⟩ | ⟨hnot, -⟩ | ⟨-, -, hgrows⟩ := effect_unmarshalField D e ft
  · exact hfails.ne_ok _ _ hrun
  · exact hpresent.2 hnone
  · exact hnot hslice
  · obtain ⟨w, hw, hlt⟩ := hgrows v
    have hvw : v = w := congrArg Prod.snd (hrun.symm.trans hw)
    rw [← hvw] at hlt
    exact lt_irrefl _ hlt

theorem Filled.agree (hf : Filled (unmarshalField D e) f f') (hg : Filled (unmarshalField D e) g g') (hft : g.ft = f.ft)
    (hslice : f.ft.Present e → ¬ f.ft.type.Slice) : Agree e f' g' := by
  intro hpresent
  rw [hf.ft_eq] at hpresent
  obtain ⟨ft, v⟩ := f
  obtain ⟨ft', v'⟩ := g
  obtain rfl : ft' = ft := hft
  obtain ⟨w, hw, rfl⟩ := (filled_iff_of_exported hpresent.1).mp hf
  obtain ⟨w', hw', rfl⟩ := (filled_iff_of_exported (f := ⟨ft', v'⟩) hpresent.1).mp hg
  obtain hfails | ⟨hnone, -⟩ | ⟨-, x, hx⟩ | ⟨-, hgrown, -⟩ := effect_unmarshalField D e ft'
  · exact absurd hw (hfails.ne_ok _ _)
  · exact absurd hnone hpresent.2
  · have hwx : w = x := congrArg Prod.snd (hw.symm.trans (hx v))
    have hwx' : w' = x := congrArg Prod.snd (hw'.symm.trans (hx v'))
    rw [hwx, hwx']
  · exact absurd hgrown (hslice hpresent)

/-- The second call leaves a field as it is: it overwrites it with the same, or does not write to it. -/
theorem Filled.again (hf : Filled (unmarshalField D e) f f') (hslice : f.ft.Present e → ¬ f.ft.type.Slice) :
    Filled (unmarshalField D e) f' f' := by
  cases hf with
  | skipped h => exact .skipped h
  | @filled ft v w h hrun =>
    refine .filled h ?_
    obtain hfails | ⟨-, hkeeps⟩ | ⟨-, x, hx⟩ | ⟨hsome, hgrown, -⟩ := effect_unmarshalField D e ft
    · exact absurd hrun (hfails.ne_ok _ _)
    · exact hkeeps w
    · have hwx : w = x := congrArg Prod.snd (hrun.symm.trans (hx v))
      rw [hx, hwx]
    · exact absurd hgrown (hslice ⟨h, hsome⟩)

theorem exists_forall₂_filled (hs : List.Forall₂ (Filled (unmarshalField D e)) s s') (ht : structType t = structType s) :
    ∃ t', List.Forall₂ (Filled (unmarshalField D e)) t t' := by
  induction hs generalizing t with
  | nil =>
    obtain rfl : t = [] := List.map_eq_nil_iff.mp ht
    exact ⟨[], .nil⟩
  | cons hf _ ih =>
    obtain ⟨g, rest, rfl, hft, hrest⟩ := List.map_eq_cons_iff.mp ht
    obtain ⟨g', hg⟩ := exists_filled hf hft
    obtain ⟨rest', hrest'⟩ := ih hrest
    exact ⟨g' :: rest', .cons hg hrest'⟩

theorem not_slice_of_forall₂ (hs : List.Forall₂ (Filled (unmarshalField D e)) s s')
    (hagree : List.Forall₂ (Agree e) s s') : ∀ ft ∈ structType s, ft.Present e → ¬ ft.type.Slice := by
  induction hs with
  | nil => exact List.forall_mem_nil _
  | cons hf _ ih =>
    cases hagree with
    | cons hhead htail => exact List.forall_mem_cons.mpr ⟨hf.not_slice hhead, ih htail⟩

theorem forall₂_agree (hs : List.Forall₂ (Filled (unmarshalField D e)) s s')
    (ht : List.Forall₂ (Filled (unmarshalField D e)) t t') (htype : structType t = structType s)
    (hslice : ∀ ft ∈ structType s, ft.Present e → ¬ ft.type.Slice) : List.Forall₂ (Agree e) s' t' := by
  induction hs generalizing t t' with
  | nil =>
    obtain rfl : t = [] := List.map_eq_nil_iff.mp htype
    cases ht
    exact .nil
  | cons hf _ ih =>
    obtain ⟨g, rest, rfl, hft, hrest⟩ := List.map_eq_cons_iff.mp htype
    cases ht with
    | cons hg hrest' =>
      obtain ⟨hhead, htail⟩ := List.forall_mem_cons.mp hslice
      exact .cons (hf.agree hg hft hhead) (ih hrest' hrest htail)

theorem forall₂_again (hs : List.Forall₂ (Filled (unmarshalField D e)) s s')
    (hslice : ∀ ft ∈ structType s, ft.Present e → ¬ ft.type.Slice) :
    List.Forall₂ (Filled (unmarshalField D e)) s' s' := by
  induction hs with
  | nil => exact .nil
  | cons hf _ ih =>
    obtain ⟨hhead, htail⟩ := List.forall_mem_cons.mp hslice
    exact .cons (hf.again hhead) (ih htail)

theorem Entry.unmarshal_eq_ok : (e.unmarshal D).run (.struct s) = (.ok (), .struct s') ↔
    List.Forall₂ (Filled (unmarshalField D e)) s s' := by
  rw [← unmarshalFields_eq_ok, Entry.unmarshal, Entry.unmarshalFunc]
  simp only [Prod.ext_iff, Target.struct.injEq]

end Leak

/-- Nothing of the earlier contents of a struct of the type shows in the fields whose attribute has a value: two structs
agree on them afterwards, and the second call on a struct changes nothing. -/
structure Entry.NoLeak (type : List StructField) : Prop where
  independent : ∀ s s' t t' : List (Field Time), structType s = type → structType t = type →
    (e.unmarshal D).run (.struct s) = (.ok (), .struct s') → (e.unmarshal D).run (.struct t) = (.ok (), .struct t') →
    List.Forall₂ (Agree e) s' t'
  twice : ∀ s s' : List (Field Time), structType s = type →
    (e.unmarshal D).run (.struct s) = (.ok (), .struct s') → (e.unmarshal D).run (.struct s') = (.ok (), .struct s')

/-- Earlier contents show exactly if the call can succeed and a `[]string` or `[]*DN` is among the fields with values. -/
theorem Entry.noLeak_iff (type : List StructField) : e.NoLeak D type ↔
    ((∃ s s' : List (Field Time), structType s = type ∧ (e.unmarshal D).run (.struct s) = (.ok (), .struct s')) →
      ∀ ft ∈ type, ft.Present e → ¬ ft.type.Slice) := by
  constructor
  · rintro hleak ⟨s, s', rfl, hrun⟩
    have hs := Entry.unmarshal_eq_ok.mp hrun
    have htype := structType_eq_of_filled hs
    obtain ⟨s'', hs'⟩ := exists_forall₂_filled hs htype
    -- the call on `s'` gives the same as the one that gave `s'`
    have hagree := hleak.independent s s' s' s'' rfl htype hrun (Entry.unmarshal_eq_ok.mpr hs')
    exact htype ▸ not_slice_of_forall₂ hs' hagree
  · intro h
    refine ⟨fun s s' t t' hs ht hrun hrun' => ?_, fun s s' hs hrun => ?_⟩
    · subst hs
      exact forall₂_agree (Entry.unmarshal_eq_ok.mp hrun) (Entry.unmarshal_eq_ok.mp hrun') ht (h ⟨s, s', rfl, hrun⟩)
    · subst hs
      exact Entry.unmarshal_eq_ok.mpr (forall₂_again (Entry.unmarshal_eq_ok.mp hrun) (h ⟨s, s', rfl, hrun⟩))

/-- `MemberOf []string` with the tag `memberOf`. -/
def memberOfField : StructField := ⟨str "MemberOf", some (str "memberOf"), [], .strings⟩

/-- A struct with only that field. -/
def memberOfStruct (groups : List GoString) : Target Unit := .struct [⟨memberOfField, groups⟩]

/-- An entry that is a member of one group. -/
def memberEntry : Entry := ⟨str "cn=a", [⟨str "memberOf", [str "cn=users"], [str "cn=users"]⟩]⟩

def noDecoders : Decoders Unit := ⟨fun _ => .error (.new "invalid time"), fun _ => .error (.new "EOF"), 64⟩

/-- The groups of whoever was in the struct before stay in it, and a second call adds the same groups again. -/
theorem Entry.unmarshal_appends :
    (memberEntry.unmarshal noDecoders).run (memberOfStruct []) = (.ok (), memberOfStruct [str "cn=users"]) ∧
      (memberEntry.unmarshal noDecoders).run (memberOfStruct [str "cn=users"]) =
        (.ok (), memberOfStruct [str "cn=users", str "cn=users"]) ∧
      (memberEntry.unmarshal noDecoders).run (memberOfStruct [str "cn=admins"]) =
        (.ok (), memberOfStruct [str "cn=admins", str "cn=users"]) ∧
      ¬ memberEntry.NoLeak noDecoders [memberOfField] := by
  refine ⟨rfl, rfl, rfl, fun h => ?_⟩
  have htwice := h.twice [⟨memberOfField, []⟩] [⟨memberOfField, [str "cn=users"]⟩] rfl rfl
  have hgroups : memberOfStruct [str "cn=users", str "cn=users"] = memberOfStruct [str "cn=users"] :=
    congrArg Prod.snd htwice
  injection hgroups with hfields
  injection hfields with hfield
  injection hfield with _ hfv
  cases hfv

end GoLdap
