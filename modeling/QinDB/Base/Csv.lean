/-
# Base.Csv — tables as comma separated values

The rules of RFC 4180 over any characters: a field is quoted, and then has any characters, its
quotes doubled, or it has none of the marks. A line ends with a newline, alone or behind a carriage
return; behind the last record it may be missing. The reader keeps apart what was quoted and what
was not.

* `parse_print`: records that are printed are read back.
-/
import Mathlib.Data.List.Basic

namespace QinDB.Base.Csv

set_option autoImplicit false

structure Dialect (α : Type) where
  quote : α
  separator : α
  carriage : α
  newline : α
  distinct : [quote, separator, carriage, newline].Nodup

structure Field (α : Type) where
  quoted : Bool
  text : List α
  deriving DecidableEq

/-! ## The reader -/

/-- Where the reader is: at the start of a field, in one without quotes, in one with quotes, behind
a quote in such a field, behind a carriage return. -/
inductive Mode where
  | start | plain | quoted | closed | carriage
  deriving DecidableEq

/-- The field and the record that are being read, and the records before. -/
structure State (α : Type) where
  mode : Mode
  text : List α
  fields : List (Field α)
  records : List (List (Field α))

variable {α : Type}

def State.endField (s : State α) : State α :=
  { s with mode := .start, text := [], fields := s.fields ++ [⟨decide (s.mode = .closed), s.text⟩] }

def State.endRecord (s : State α) : State α := ⟨.start, [], [], s.records ++ [s.fields]⟩

variable [DecidableEq α] (d : Dialect α)

/-- The end of a field. -/
def delimit (s : State α) (c : α) : Option (State α) :=
  if c = d.separator then some s.endField
  else if c = d.newline then some s.endField.endRecord
  else if c = d.carriage then some { s.endField with mode := .carriage }
  else none

def step (s : State α) (c : α) : Option (State α) :=
  match s.mode with
  | .start =>
      if c = d.quote then some { s with mode := .quoted }
      else some ((delimit d s c).getD { s with mode := .plain, text := s.text ++ [c] })
  | .plain =>
      if c = d.quote then none
      else some ((delimit d s c).getD { s with text := s.text ++ [c] })
  | .quoted =>
      if c = d.quote then some { s with mode := .closed } else some { s with text := s.text ++ [c] }
  | .closed =>
      if c = d.quote then some { s with mode := .quoted, text := s.text ++ [c] } else delimit d s c
  | .carriage => if c = d.newline then some s.endRecord else none

/-- The records at the end of the text. -/
def finish (s : State α) : Option (List (List (Field α))) :=
  match s.mode with
  | .start => some (if s.fields = [] then s.records else s.endField.endRecord.records)
  | .plain | .closed => some s.endField.endRecord.records
  | .quoted | .carriage => none

def parse (text : List α) : Option (List (List (Field α))) :=
  (text.foldlM (step d) ⟨.start, [], [], []⟩).bind finish

/-! ## The printer -/

/-- A quote is doubled. -/
def escape (text : List α) : List α := text.flatMap fun c => if c = d.quote then [c, c] else [c]

def printField (field : Field α) : List α :=
  if field.quoted then d.quote :: (escape d field.text ++ [d.quote]) else field.text

def printRecord (fields : List (Field α)) : List α :=
  [d.separator].intercalate (fields.map (printField d))

def print (records : List (List (Field α))) : List α :=
  records.flatMap fun fields => printRecord d fields ++ [d.newline]

/-! ## Reading what is printed -/

/-- A character that stands for itself outside quotes. -/
def IsPlain (c : α) : Prop := c ∉ [d.quote, d.separator, d.carriage, d.newline]

instance (c : α) : Decidable (IsPlain d c) := inferInstanceAs (Decidable (c ∉ _))

/-- A field without quotes has none of the marks. -/
def Field.Printable (field : Field α) : Prop := field.quoted = false → ∀ c ∈ field.text, IsPlain d c

variable {d} {c : α} {text before : List α} {fields : List (Field α)}
  {records : List (List (Field α))}

omit [DecidableEq α] in
theorem marks_ne : d.quote ≠ d.separator ∧ d.quote ≠ d.newline ∧ d.separator ≠ d.newline := by
  have := d.distinct
  simp only [List.nodup_cons, List.mem_cons, List.not_mem_nil] at this
  tauto

theorem foldlM_escape (before text : List α) :
    (escape d text).foldlM (step d) ⟨.quoted, before, fields, records⟩ =
      some ⟨.quoted, before ++ text, fields, records⟩ := by
  induction text generalizing before with
  | nil => rw [List.append_nil]; rfl
  | cons c rest ih =>
    have next := ih (before ++ [c])
    rw [List.append_assoc, List.singleton_append] at next
    rw [← next, escape, escape, List.flatMap_cons, List.foldlM_append]
    by_cases same : c = d.quote
    · simp [same, step]
    · simp [same, step]

theorem foldlM_quoted (text : List α) :
    (d.quote :: (escape d text ++ [d.quote])).foldlM (step d) ⟨.start, [], fields, records⟩ =
      some ⟨.closed, text, fields, records⟩ := by
  have opened : step d ⟨.start, [], fields, records⟩ d.quote =
      some ⟨.quoted, [], fields, records⟩ := if_pos rfl
  have closed : step d ⟨.quoted, text, fields, records⟩ d.quote =
      some ⟨.closed, text, fields, records⟩ := if_pos rfl
  rw [List.foldlM_cons, opened, Option.bind_eq_bind, Option.bind_some, List.foldlM_append,
    foldlM_escape, Option.bind_eq_bind, Option.bind_some, List.foldlM_cons, List.nil_append, closed]
  rfl

theorem delimit_plain (plain : IsPlain d c) (s : State α) : delimit d s c = none := by
  simp only [IsPlain, List.mem_cons, List.not_mem_nil, or_false, not_or] at plain
  rw [delimit, if_neg plain.2.1, if_neg plain.2.2.2, if_neg plain.2.2.1]

theorem foldlM_plain {mode : Mode} (outside : mode = .start ∨ mode = .plain)
    (plain : ∀ c ∈ text, IsPlain d c) :
    text.foldlM (step d) ⟨mode, before, fields, records⟩ =
      some ⟨if text = [] then mode else .plain, before ++ text, fields, records⟩ := by
  induction text generalizing mode before with
  | nil => rw [List.append_nil]; rfl
  | cons c rest ih =>
    rw [List.forall_mem_cons] at plain
    have unquoted : c ≠ d.quote := fun same => plain.1 (same ▸ List.mem_cons_self)
    have first : step d ⟨mode, before, fields, records⟩ c =
        some ⟨.plain, before ++ [c], fields, records⟩ := by
      rcases outside with rfl | rfl <;>
        simp only [step, if_neg unquoted, delimit_plain plain.1, Option.getD_none]
    rw [List.foldlM_cons, first, Option.bind_eq_bind, Option.bind_some, ih (.inr rfl) plain.2,
      List.append_assoc, List.singleton_append, if_neg (List.cons_ne_nil c rest), ite_self]

/-- A field is read up to its end, and it is known then whether it was quoted. -/
theorem foldlM_field {field : Field α} (printable : field.Printable d) :
    ∃ mode, mode ≠ .quoted ∧ mode ≠ .carriage ∧ decide (mode = .closed) = field.quoted ∧
      (printField d field).foldlM (step d) ⟨.start, [], fields, records⟩ =
        some ⟨mode, field.text, fields, records⟩ := by
  obtain ⟨quoted, text⟩ := field
  cases quoted with
  | true => exact ⟨.closed, by decide, by decide, rfl, foldlM_quoted text⟩
  | false =>
    refine ⟨if text = [] then .start else .plain, ?_, ?_, ?_,
      foldlM_plain (.inl rfl) (printable rfl)⟩ <;> split <;> simp

/-- Both marks end a field. -/
theorem step_delimit {mode : Mode} (mark : c = d.separator ∨ c = d.newline) (inside : mode ≠ .quoted)
    (line : mode ≠ .carriage) (text : List α) :
    step d ⟨mode, text, fields, records⟩ c = delimit d ⟨mode, text, fields, records⟩ c := by
  have unquoted : c ≠ d.quote := by
    rintro rfl
    exact mark.elim marks_ne.1 marks_ne.2.1
  have found : (delimit d ⟨mode, text, fields, records⟩ c).isSome := by
    rcases mark with rfl | rfl
    · rw [delimit, if_pos rfl]; rfl
    · rw [delimit, if_neg (Ne.symm marks_ne.2.2), if_pos rfl]; rfl
  obtain ⟨next, ended⟩ := Option.isSome_iff_exists.mp found
  cases mode with
  | quoted => exact absurd rfl inside
  | carriage => exact absurd rfl line
  | start => simp only [step, if_neg unquoted, ended, Option.getD_some]
  | plain => simp only [step, if_neg unquoted, ended, Option.getD_some]
  | closed => simp only [step, if_neg unquoted]

theorem foldlM_field_separator {field : Field α} (printable : field.Printable d) :
    (printField d field ++ [d.separator]).foldlM (step d) ⟨.start, [], fields, records⟩ =
      some ⟨.start, [], fields ++ [field], records⟩ := by
  obtain ⟨mode, inside, line, quoted, read⟩ := foldlM_field printable
  rw [List.foldlM_append, read, Option.bind_eq_bind, Option.bind_some, List.foldlM_cons,
    step_delimit (.inl rfl) inside line, delimit, if_pos rfl, State.endField]
  simp only [quoted]
  rfl

theorem foldlM_field_newline {field : Field α} (printable : field.Printable d) :
    (printField d field ++ [d.newline]).foldlM (step d) ⟨.start, [], fields, records⟩ =
      some ⟨.start, [], [], records ++ [fields ++ [field]]⟩ := by
  obtain ⟨mode, inside, line, quoted, read⟩ := foldlM_field printable
  rw [List.foldlM_append, read, Option.bind_eq_bind, Option.bind_some, List.foldlM_cons,
    step_delimit (.inr rfl) inside line, delimit, if_neg (Ne.symm marks_ne.2.2), if_pos rfl,
    State.endField]
  simp only [quoted]
  rfl

/-- Behind the fields that have been read, a record goes on with those that are printed. -/
theorem foldlM_record {first : Field α} {rest : List (Field α)}
    (printable : ∀ field ∈ first :: rest, field.Printable d) :
    (printRecord d (first :: rest) ++ [d.newline]).foldlM (step d) ⟨.start, [], fields, records⟩ =
      some ⟨.start, [], [], records ++ [fields ++ first :: rest]⟩ := by
  induction rest generalizing first fields with
  | nil =>
    rw [printRecord, List.map_cons, List.map_nil, List.intercalate_singleton]
    exact foldlM_field_newline (printable first List.mem_cons_self)
  | cons second rest ih =>
    rw [List.forall_mem_cons] at printable
    have split : printRecord d (first :: second :: rest) ++ [d.newline] =
        (printField d first ++ [d.separator]) ++ (printRecord d (second :: rest) ++ [d.newline]) := by
      simp only [printRecord, List.map_cons, List.intercalate_cons_cons, List.append_assoc]
    rw [split, List.foldlM_append, foldlM_field_separator printable.1, Option.bind_eq_bind,
      Option.bind_some, ih printable.2, List.append_assoc, List.singleton_append]

theorem foldlM_records {table : List (List (Field α))}
    (printable : ∀ fields ∈ table, fields ≠ [] ∧ ∀ field ∈ fields, field.Printable d) :
    (print d table).foldlM (step d) ⟨.start, [], [], records⟩ =
      some ⟨.start, [], [], records ++ table⟩ := by
  induction table generalizing records with
  | nil => rw [List.append_nil]; rfl
  | cons fields rest ih =>
    rw [List.forall_mem_cons] at printable
    obtain ⟨⟨nonempty, here⟩, later⟩ := printable
    obtain ⟨first, more, rfl⟩ := List.exists_cons_of_ne_nil nonempty
    rw [print, List.flatMap_cons, List.foldlM_append, foldlM_record here, Option.bind_eq_bind,
      Option.bind_some]
    refine (ih later).trans ?_
    rw [List.append_assoc, List.singleton_append, List.nil_append]

/-- Records that are printed are read back. -/
theorem parse_print {table : List (List (Field α))}
    (printable : ∀ fields ∈ table, fields ≠ [] ∧ ∀ field ∈ fields, field.Printable d) :
    parse d (print d table) = some table := by
  rw [parse, foldlM_records printable, Option.bind_some, finish]
  simp only [if_true, List.nil_append]

end QinDB.Base.Csv
