import Flowscript.Proofs.Codec
import Flowscript.Proofs.Steps

/-!
# What decoding keeps

A part of a machine that is decoded and encoded again may be written otherwise than before. Of
each field that was written it can be said whether it is still there with the same value, and one
can tell so from what was written: it is, unless the field has no meaning where it stands, or its
value is written in a form that is never chosen for it.
-/

namespace Flowscript

/-! ## Parts of a machine -/

/-- The parts of a machine that are written with fields. `states` has the states under their
names. -/
inductive Record where
  | machine | states | state | retryClause | catchClause | choiceRule

/-- What stands in a field. -/
inductive Part where
  /-- A value that is written in one form only. -/
  | data
  /-- A name, which may also be written as an object. -/
  | text
  /-- A rate, which is a number with a fraction and may also be written as a whole number. -/
  | real
  | list (member : Part)
  /-- A record, which may also be written as an array of its fields. -/
  | record (record : Record)

/-- What stands in a field of a state. -/
def Part.ofProperty? : Property → Option Part
  | .type => some .text
  | .retry => some (.list (.record .retryClause))
  | .catches => some (.list (.record .catchClause))
  | .branches => some (.list (.record .machine))
  | .choices => some (.list (.record .choiceRule))
  | .name | .other _ => none
  | _ => some .data

/-- What stands in a field of a record, if a field of that name has a meaning there. -/
def Record.field? : Record → String → Option Part
  | .machine, name =>
    if name = "StartAt" then some .data
    else if name = "States" then some (.record .states)
    else none
  | .states, _ => some (.record .state)
  | .state, name => Part.ofProperty? (Property.ofText name)
  | .retryClause, name =>
    if name = "ErrorEquals" then some (.list .data)
    else if name = "MaxAttempts" ∨ name = "IntervalSeconds" then some .data
    else if name = "BackoffRate" then some .real
    else none
  | .catchClause, name =>
    if name = "ErrorEquals" then some (.list .data)
    else if name = "ResultPath" ∨ name = "Next" then some .data
    else none
  | .choiceRule, _ => some .data

/-- Whether null stands for an absent value in a field of a record. -/
def Record.takesNull : Record → String → Bool
  | .state, name =>
    (Part.ofProperty? (Property.ofText name)).isSome && Property.ofText name != .type
  | .catchClause, name => name = "ResultPath"
  | _, _ => false

/-! ## What is kept -/

/-- Whether a value is null. -/
def Json.isNull : Json → Bool
  | .null => true
  | _ => false

mutual

/-- Everything that is written is in the output, with the same value: the members of each list, and
the fields of each record. A null that stands for an absent value may be missing, and also a field
that has no meaning, unless `all` fields count. -/
def Keeps (all : Bool) : Part → Json → Json → Prop
  | .list member, .array items, .array others => KeepsItems all member items others
  | .record record, .object fields, .object others => KeepsFields all record others fields
  | .list _, _, _ | .record _, _, _ => False
  | _, written, output => output = written

/-- `Keeps` for the members of a list. -/
def KeepsItems (all : Bool) (member : Part) : List Json → List Json → Prop
  | [], [] => True
  | item :: rest, other :: others => Keeps all member item other ∧ KeepsItems all member rest others
  | _, _ => False

/-- `Keeps` for the fields of a record, of which the output has `others`. -/
def KeepsFields (all : Bool) (record : Record) (others : List (String × Json)) :
    List (String × Json) → Prop
  | [] => True
  | (name, value) :: rest =>
    ((all = false ∧ record.field? name = none) ∨ (record.takesNull name ∧ value.isNull) ∨
      ∃ output, Entries.get? name others = some output ∧
        Keeps all ((record.field? name).getD .data) value output) ∧
    KeepsFields all record others rest

end

mutual

/-- Whether everything is written in the form that is chosen for it: records as objects, names as
texts, rates with a fraction. If `all` fields count, each field must have a meaning. -/
def Part.fits (all : Bool) : Part → Json → Bool
  | .list member, .array items => fitsItems all member items
  | .record record, .object fields => fitsFields all record fields
  | .data, _ | .text, .string _ | .real, .number (.real _) => true
  | _, _ => false

/-- `Part.fits` for the members of a list. -/
def fitsItems (all : Bool) (member : Part) : List Json → Bool
  | [] => true
  | item :: rest => member.fits all item && fitsItems all member rest

/-- `Part.fits` for the fields of a record. -/
def fitsFields (all : Bool) (record : Record) : List (String × Json) → Bool
  | [] => true
  | (name, value) :: rest =>
    (match record.field? name with
      | none => !all
      | some part => (record.takesNull name && value.isNull) || part.fits all value) &&
    fitsFields all record rest

end

/-! ## Faithful parts -/

/-- What is written is kept if it fits, and not otherwise. -/
def Faithful (all : Bool) (part : Part) (written output : Json) : Prop :=
  Keeps all part written output ↔ part.fits all written = true

namespace Faithful

variable {all : Bool}

theorem data (value : Json) : Faithful all .data value value := by
  cases value <;> simp [Faithful, Keeps, Part.fits]

/-- A record that is not written as an object does not fit, and is not kept. -/
theorem of_object {record : Record} {written output : Json}
    (h : ∀ fields, written = .object fields →
      Faithful all (.record record) (.object fields) output) :
    Faithful all (.record record) written output := by
  cases written with
  | object fields => exact h fields rfl
  | _ => simp [Faithful, Keeps, Part.fits]

theorem list {α : Type} {member : Part} {decode : Decoder α} {encode : α → Json}
    {items : List Json} {values : List α} (hvalues : items.mapM decode = .ok values)
    (h : ∀ item ∈ items, ∀ a, decode item = .ok a → Faithful all member item (encode a)) :
    Faithful all (.list member) (.array items) (.array (values.map encode)) := by
  simp only [Faithful, Keeps, Part.fits]
  induction items generalizing values with
  | nil =>
    cases hvalues
    simp [KeepsItems, fitsItems]
  | cons item rest ih =>
    rw [List.mapM_cons] at hvalues
    obtain ⟨a, ha, hvalues⟩ := ok_of_bind hvalues
    obtain ⟨others, hothers, hvalues⟩ := ok_of_bind hvalues
    cases hvalues
    have hrest := ih hothers fun other hother => h other (List.mem_cons_of_mem _ hother)
    have hitem : Keeps all member item (encode a) ↔ _ := h item List.mem_cons_self a ha
    rw [List.map_cons, KeepsItems, fitsItems, Bool.and_eq_true, hitem, hrest]

end Faithful

/-- What became of a field of a record. -/
inductive Settled (all : Bool) (record : Record) (others : List (String × Json)) (name : String)
    (value : Json) : Prop
  | unknown : record.field? name = none → Entries.get? name others = none → Settled ..
  | absent : record.takesNull name = true → value.isNull = true → Settled ..
  | written {part : Part} {output : Json} : record.field? name = some part →
    Entries.get? name others = some output → Faithful all part value output → Settled ..

theorem Record.field?_of_takesNull {record : Record} {name : String}
    (h : record.takesNull name = true) : ∃ part, record.field? name = some part := by
  cases record with
  | state =>
    simp only [takesNull, Bool.and_eq_true] at h
    exact Option.isSome_iff_exists.mp h.1
  | catchClause =>
    obtain rfl : name = "ResultPath" := by simpa [takesNull] using h
    exact ⟨.data, rfl⟩
  | _ => cases h

/-- A record is faithful if each of its fields is settled. -/
theorem Faithful.record {all : Bool} {record : Record} {fields others : List (String × Json)}
    (h : ∀ entry ∈ fields, Settled all record others entry.1 entry.2) :
    Faithful all (.record record) (.object fields) (.object others) := by
  simp only [Faithful, Keeps, Part.fits]
  induction fields with
  | nil => simp [KeepsFields, fitsFields]
  | cons entry rest ih =>
    obtain ⟨name, value⟩ := entry
    rw [KeepsFields, fitsFields, Bool.and_eq_true,
      ih fun other hother => h other (List.mem_cons_of_mem _ hother)]
    refine and_congr_left' ?_
    cases h (name, value) List.mem_cons_self with
    | unknown hfield hothers =>
      -- a field without a meaning takes no null either, so only `all` decides
      have hnull : record.takesNull name ≠ true := by
        intro hnull
        obtain ⟨part, hpart⟩ := Record.field?_of_takesNull hnull
        cases hfield.symm.trans hpart
      simp [hfield, hothers, hnull]
    | absent hnull hvalue =>
      obtain ⟨part, hpart⟩ := Record.field?_of_takesNull hnull
      simp [hnull, hvalue, hpart]
    | @written part output hfield hothers hfaithful =>
      rw [Faithful] at hfaithful
      simp [hfield, hothers, hfaithful]

/-! ## Fields one after the other -/

section Fields

variable {δ ε : Type} {set : δ → String × Json → Except ε δ} {get : String → δ → Option Json}

/-- What is known of a field does not change while other fields are taken up. -/
theorem get_of_foldlM
    (hframe : ∀ {before entry after name}, set before entry = .ok after → name ≠ entry.1 →
      get name after = get name before)
    {fields : List (String × Json)} {before after : δ} (h : fields.foldlM set before = .ok after)
    {name : String} (hname : name ∉ Entries.keys fields) : get name after = get name before := by
  induction fields generalizing before with
  | nil =>
    cases h
    rfl
  | cons entry rest ih =>
    rw [List.foldlM_cons] at h
    obtain ⟨between, hset, hrest⟩ := ok_of_bind h
    simp only [Entries.keys, List.map_cons, List.mem_cons, not_or] at hname ih
    rw [ih hrest hname.2, hframe hset hname.1]

/-- In the end a field is what it became when it was taken up. -/
theorem exists_set_of_foldlM
    (hframe : ∀ {before entry after name}, set before entry = .ok after → name ≠ entry.1 →
      get name after = get name before)
    {fields : List (String × Json)} (hdistinct : (Entries.keys fields).Nodup) {start final : δ}
    (h : fields.foldlM set start = .ok final) {entry : String × Json} (hentry : entry ∈ fields) :
    ∃ before after, set before entry = .ok after ∧ get entry.1 final = get entry.1 after := by
  induction fields generalizing start with
  | nil => cases hentry
  | cons first rest ih =>
    rw [List.foldlM_cons] at h
    obtain ⟨between, hset, hrest⟩ := ok_of_bind h
    rw [Entries.keys, List.map_cons, List.nodup_cons] at hdistinct
    rcases List.mem_cons.mp hentry with rfl | hentry
    · exact ⟨start, between, hset, get_of_foldlM hframe hrest hdistinct.1⟩
    · exact ih hdistinct.2 hrest hentry

end Fields

/-! ## Decoders of single values -/

namespace Decoder

theorem eq_of_string {value : Json} {s : String} (h : string value = .ok s) : value = .string s := by
  cases value <;> cases h
  rfl

theorem eq_of_boolean {value : Json} {b : Bool} (h : boolean value = .ok b) : value = .bool b := by
  cases value <;> cases h
  rfl

theorem eq_of_count32 {value : Json} {n : UInt32} (h : count32 value = .ok n) :
    value = countNumber n.toNat := by
  unfold count32 at h
  split at h
  · split at h
    · rename_i number hbounds
      cases h
      have hsmall : number.toNat < UInt32.size := by omega
      rw [countNumber, UInt32.toNat_ofNat_of_lt' hsmall, Int.toNat_of_nonneg hbounds.1]
    · cases h
  · cases h

theorem eq_of_count64 {value : Json} {n : UInt64} (h : count64 value = .ok n) :
    value = countNumber n.toNat := by
  unfold count64 at h
  split at h
  · split at h
    · rename_i number hbounds
      cases h
      have hsmall : number.toNat < UInt64.size := by omega
      rw [countNumber, UInt64.toNat_ofNat_of_lt' hsmall, Int.toNat_of_nonneg hbounds.1]
    · cases h
  · cases h

theorem exists_of_list {α : Type} {decode : Decoder α} {value : Json} {values : List α}
    (h : list decode value = .ok values) :
    ∃ items, value = .array items ∧ items.mapM decode = .ok values := by
  cases value with
  | array items => exact ⟨items, rfl, h⟩
  | _ => cases h

/-- Null stands for an absent value, and anything else is decoded. -/
theorem cases_optional {α : Type} {decode : Decoder α} {value : Json} {field : Option α}
    (h : optional decode value = .ok field) :
    (value.isNull = true ∧ field = none) ∨ ∃ a, field = some a ∧ decode value = .ok a := by
  unfold optional at h
  split at h
  · cases h
    exact .inl ⟨rfl, rfl⟩
  · obtain ⟨a, ha, rfl⟩ := ok_of_map h
    exact .inr ⟨a, rfl, ha⟩

end Decoder

namespace Faithful

variable {all : Bool} {value : Json}

theorem string {s : String} (h : Decoder.string value = .ok s) :
    Faithful all .data value (.string s) := by
  rw [Decoder.eq_of_string h]
  exact .data _

theorem boolean {b : Bool} (h : Decoder.boolean value = .ok b) :
    Faithful all .data value (.bool b) := by
  rw [Decoder.eq_of_boolean h]
  exact .data _

theorem count32 {n : UInt32} (h : Decoder.count32 value = .ok n) :
    Faithful all .data value (countNumber n.toNat) := by
  rw [Decoder.eq_of_count32 h]
  exact .data _

theorem count64 {n : UInt64} (h : Decoder.count64 value = .ok n) :
    Faithful all .data value (countNumber n.toNat) := by
  rw [Decoder.eq_of_count64 h]
  exact .data _

/-- A list whose members are kept if they fit. -/
theorem ofList {α : Type} {member : Part} {decode : Decoder α} {encode : α → Json}
    {values : List α} (hdistinct : value.Distinct) (hvalues : Decoder.list decode value = .ok values)
    (h : ∀ {item : Json} {a : α}, item.Distinct → decode item = .ok a →
      Faithful all member item (encode a)) :
    Faithful all (.list member) value (.array (values.map encode)) := by
  obtain ⟨items, rfl, hitems⟩ := Decoder.exists_of_list hvalues
  exact .list hitems fun item hitem a ha => h (hdistinct.item hitem) ha

theorem texts {texts : List String} (h : Decoder.list .string value = .ok texts) :
    Faithful all (.list .data) value (textArray texts) := by
  obtain ⟨items, rfl, hitems⟩ := Decoder.exists_of_list h
  exact .list hitems fun item _ s hs => .string hs

/-- A whole number comes back with a fraction. -/
theorem real {x : Double} (h : Decoder.real value = .ok x) :
    Faithful all .real value (.number (.real x)) := by
  cases value with
  | number n =>
    cases n with
    | whole n => simp [Faithful, Keeps, Part.fits]
    | real y =>
      cases h
      simp [Faithful, Keeps, Part.fits]
  | _ => cases h

/-- A type that is written as an object comes back as its name. -/
theorem type {type : StateType} (h : StateType.ofJson value = .ok type) :
    Faithful all .text value (.string type.name) := by
  cases value with
  | string name =>
    rw [StateType.ofJson, StateType.decodeName] at h
    split at h
    · rename_i found hfound
      cases h
      have hname : type.name = name := by simpa using List.find?_some hfound
      simp [Faithful, Keeps, Part.fits, hname]
    · cases h
  | object fields => simp [Faithful, Keeps, Part.fits]
  | _ => cases h

end Faithful

/-! ## Clauses -/

/-- What is known of a field of a clause. -/
def RetryClause.Draft.field? (name : String) (draft : Draft) : Option Json :=
  if name = "ErrorEquals" then draft.errorEquals.map textArray
  else if name = "MaxAttempts" then draft.maxAttempts.map fun n => countNumber n.toNat
  else if name = "IntervalSeconds" then draft.intervalSeconds.map fun n => countNumber n.toNat
  else if name = "BackoffRate" then draft.backoffRate.map fun x => .number (.real x)
  else none

theorem RetryClause.Draft.field?_set {before after : Draft} {entry : String × Json} {name : String}
    (h : before.set entry.1 entry.2 = .ok after) (hname : name ≠ entry.1) :
    after.field? name = before.field? name := by
  unfold Draft.set at h
  split at h
  · obtain ⟨v, hv, rfl⟩ := ok_of_map h
    simp_all [Draft.field?]
  · obtain ⟨v, hv, rfl⟩ := ok_of_map h
    simp_all [Draft.field?]
  · obtain ⟨v, hv, rfl⟩ := ok_of_map h
    simp_all [Draft.field?]
  · obtain ⟨v, hv, rfl⟩ := ok_of_map h
    simp_all [Draft.field?]
  · cases h
    rfl

/-- What is known of a field is written into it. -/
theorem RetryClause.get?_toJson {draft : Draft} {c : RetryClause} (h : draft.finish = .ok c)
    {name : String} {output : Json} (hfield : draft.field? name = some output) :
    c.toJson.get? name = some output := by
  obtain ⟨errorEquals, herror, hc⟩ := ok_of_bind h
  cases hc
  unfold Draft.field? at hfield
  split at hfield
  · rename_i hname
    obtain ⟨texts, htexts, rfl⟩ := Option.map_eq_some_iff.mp hfield
    rw [htexts] at herror
    cases herror
    simp [hname, toJson, Json.get?, Json.fields, Entries.get?]
  split at hfield
  · rename_i hname
    obtain ⟨n, hn, rfl⟩ := Option.map_eq_some_iff.mp hfield
    simp [hname, hn, toJson, Json.get?, Json.fields, Entries.get?]
  split at hfield
  · rename_i hname
    obtain ⟨n, hn, rfl⟩ := Option.map_eq_some_iff.mp hfield
    simp [hname, hn, toJson, Json.get?, Json.fields, Entries.get?]
  split at hfield
  · rename_i hname
    obtain ⟨x, hx, rfl⟩ := Option.map_eq_some_iff.mp hfield
    simp [hname, hx, toJson, Json.get?, Json.fields, Entries.get?]
  · cases hfield

theorem Faithful.retryClause {all : Bool} {value : Json} {c : RetryClause}
    (hdistinct : value.Distinct) (h : RetryClause.ofJson value = .ok c) :
    Faithful all (.record .retryClause) value c.toJson := by
  refine .of_object ?_
  rintro fields rfl
  rw [RetryClause.ofJson] at h
  obtain ⟨draft, hdraft, hfinish⟩ := ok_of_bind h
  refine Faithful.record ?_
  rintro ⟨name, value⟩ hentry
  obtain ⟨before, after, hset, hfield⟩ :=
    exists_set_of_foldlM RetryClause.Draft.field?_set hdistinct.1 hdraft hentry
  dsimp only at hset hfield ⊢
  unfold RetryClause.Draft.set at hset
  split at hset
  · obtain ⟨texts, htexts, rfl⟩ := ok_of_map hset
    exact .written rfl (RetryClause.get?_toJson hfinish hfield) (.texts htexts)
  · obtain ⟨n, hn, rfl⟩ := ok_of_map hset
    exact .written rfl (RetryClause.get?_toJson hfinish hfield) (.count32 hn)
  · obtain ⟨n, hn, rfl⟩ := ok_of_map hset
    exact .written rfl (RetryClause.get?_toJson hfinish hfield) (.count64 hn)
  · obtain ⟨x, hx, rfl⟩ := ok_of_map hset
    exact .written rfl (RetryClause.get?_toJson hfinish hfield) (.real hx)
  · rename_i herrors hattempts hinterval hbackoff
    refine .unknown ?_ ?_
    · rw [Record.field?, if_neg herrors, if_neg (not_or.mpr ⟨hattempts, hinterval⟩),
        if_neg hbackoff]
    · simp [Entries.get?, Ne.symm herrors, Ne.symm hattempts, Ne.symm hinterval,
        Ne.symm hbackoff]

/-- What is known of a field of a clause. -/
def CatchClause.Draft.field? (name : String) (draft : Draft) : Option Json :=
  if name = "ErrorEquals" then draft.errorEquals.map textArray
  else if name = "ResultPath" then draft.resultPath.map .string
  else if name = "Next" then draft.next.map .string
  else none

theorem CatchClause.Draft.field?_set {before after : Draft} {entry : String × Json} {name : String}
    (h : before.set entry.1 entry.2 = .ok after) (hname : name ≠ entry.1) :
    after.field? name = before.field? name := by
  unfold Draft.set at h
  split at h
  · obtain ⟨v, hv, rfl⟩ := ok_of_map h
    simp_all [Draft.field?]
  · obtain ⟨v, hv, rfl⟩ := ok_of_map h
    simp_all [Draft.field?]
  · obtain ⟨v, hv, rfl⟩ := ok_of_map h
    simp_all [Draft.field?]
  · cases h
    rfl

theorem CatchClause.get?_toJson {draft : Draft} {c : CatchClause} (h : draft.finish = .ok c)
    {name : String} {output : Json} (hfield : draft.field? name = some output) :
    c.toJson.get? name = some output := by
  obtain ⟨errorEquals, herror, h⟩ := ok_of_bind h
  obtain ⟨next, hnext, hc⟩ := ok_of_bind h
  cases hc
  unfold Draft.field? at hfield
  split at hfield
  · rename_i hname
    obtain ⟨texts, htexts, rfl⟩ := Option.map_eq_some_iff.mp hfield
    rw [htexts] at herror
    cases herror
    simp [hname, toJson, Json.get?, Json.fields, Entries.get?]
  split at hfield
  · rename_i hname
    obtain ⟨path, hpath, rfl⟩ := Option.map_eq_some_iff.mp hfield
    simp [hname, hpath, toJson, Json.get?, Json.fields, Entries.get?]
  split at hfield
  · rename_i hname
    obtain ⟨target, htarget, rfl⟩ := Option.map_eq_some_iff.mp hfield
    rw [htarget] at hnext
    cases hnext
    cases hpath : draft.resultPath <;>
      simp [hname, toJson, Json.get?, Json.fields, Entries.get?]
  · cases hfield

theorem Faithful.catchClause {all : Bool} {value : Json} {c : CatchClause}
    (hdistinct : value.Distinct) (h : CatchClause.ofJson value = .ok c) :
    Faithful all (.record .catchClause) value c.toJson := by
  refine .of_object ?_
  rintro fields rfl
  rw [CatchClause.ofJson] at h
  obtain ⟨draft, hdraft, hfinish⟩ := ok_of_bind h
  refine Faithful.record ?_
  rintro ⟨name, value⟩ hentry
  obtain ⟨before, after, hset, hfield⟩ :=
    exists_set_of_foldlM CatchClause.Draft.field?_set hdistinct.1 hdraft hentry
  dsimp only at hset hfield ⊢
  unfold CatchClause.Draft.set at hset
  split at hset
  · obtain ⟨texts, htexts, rfl⟩ := ok_of_map hset
    exact .written rfl (CatchClause.get?_toJson hfinish hfield) (.texts htexts)
  · obtain ⟨path?, hpath, rfl⟩ := ok_of_map hset
    obtain ⟨hnull, -⟩ | ⟨path, rfl, hstring⟩ := Decoder.cases_optional hpath
    · exact .absent rfl hnull
    · exact .written rfl (CatchClause.get?_toJson hfinish hfield) (.string hstring)
  · obtain ⟨next, hnext, rfl⟩ := ok_of_map hset
    exact .written rfl (CatchClause.get?_toJson hfinish hfield) (.string hnext)
  · rename_i herrors hpath hnext
    refine .unknown ?_ ?_
    · rw [Record.field?, if_neg herrors, if_neg (not_or.mpr ⟨hpath, hnext⟩)]
    · cases hresult : c.resultPath <;>
        simp [Entries.get?, Ne.symm herrors, Ne.symm hpath, Ne.symm hnext]

/-- A predicate has the name by which it is found. -/
theorem Predicate.name_of_ofName? {name : String} {p : Predicate} (h : ofName? name = some p) :
    p.name = name := by
  obtain ⟨type, -, h⟩ := List.exists_of_findSome?_eq_some h
  obtain ⟨rest, hrest, h⟩ := Option.bind_eq_some_iff.mp h
  obtain ⟨relation, hrelation, h⟩ := Option.bind_eq_some_iff.mp h
  cases h
  have hback : relation.name = String.ofList rest := by simpa using List.find?_some hrelation
  rw [Predicate.name, hback, ← String.toList_inj, String.toList_append, String.toList_ofList]
  exact (Text.dropStart?_eq_some.mp hrest).symm

theorem ChoiceClause.get?_of_textField {name text : String} {fields : List (String × Json)}
    (h : textField name fields = .ok text) : Entries.get? name fields = some (.string text) := by
  unfold textField at h
  split at h <;> cases h
  assumption

theorem Faithful.choiceClause {all : Bool} {value : Json} {c : ChoiceClause}
    (hdistinct : value.Distinct) (h : ChoiceClause.ofJson value = .ok c) :
    Faithful all (.record .choiceRule) value c.toJson := by
  refine .of_object ?_
  rintro fields rfl
  rw [ChoiceClause.ofJson] at h
  obtain ⟨variablePath, hvariable, h⟩ := ok_of_bind h
  obtain ⟨next, hnext, h⟩ := ok_of_bind h
  split at h
  · rename_i testName testValue hothers
    split at h
    · rename_i predicate hpredicate
      cases h
      refine Faithful.record ?_
      rintro ⟨name, value⟩ hentry
      have hvalue := Entries.get?_eq_of_mem hdistinct.1 hentry
      by_cases hisVariable : name = "Variable"
      · subst hisVariable
        cases hvalue.symm.trans (ChoiceClause.get?_of_textField hvariable)
        exact .written rfl rfl (.data _)
      by_cases hisNext : name = "Next"
      · subst hisNext
        cases hvalue.symm.trans (ChoiceClause.get?_of_textField hnext)
        refine .written rfl ?_ (.data _)
        simp [Entries.get?, predicate.name_ne]
      -- what is left is the test
      · have htest := Entries.mem_erase_of_ne (Entries.mem_erase_of_ne hentry hisVariable) hisNext
        rw [hothers, List.mem_singleton] at htest
        cases htest
        have hname := Predicate.name_of_ofName? hpredicate
        refine .written rfl ?_ (.data _)
        simp [Entries.get?, hname, Ne.symm hisVariable]
    · cases h
  · cases h

end Flowscript
