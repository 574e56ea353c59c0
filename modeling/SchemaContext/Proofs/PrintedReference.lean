import Mathlib.Data.List.Infix
import SchemaContext.Record.OfSchema

/-!
# Printed references

The description of a reference can be read off its printed form: each opening bracket is
a list layer, an exclamation mark at the end excludes null, and one before a closing
bracket excludes it from the items of a list. What is left without brackets and
exclamation marks is the name of the type inside, as long as that name has none of them.
-/

namespace SchemaContext
namespace TypeRef

def isMark (c : Char) : Bool := c = '[' || c = ']' || c = '!'

@[simp] theorem isMark_opening : isMark '[' = true := rfl

@[simp] theorem isMark_closing : isMark ']' = true := rfl

@[simp] theorem isMark_exclamation : isMark '!' = true := rfl

/-- A reference as it stands inside another one, or that reference itself. -/
inductive Within : TypeRef → TypeRef → Prop
  | self {t : TypeRef} : Within t t
  | item {t item : TypeRef} {required : Bool} (h : Within t item) :
      Within t (list item required)

section Reading

variable {t item : TypeRef} {n : String} {required : Bool}

theorem name_eq_of_within (h : (named n required).Within t) : t.name = n := by
  induction h with
  | self => rfl
  | item _ ih => exact ih

theorem itemsRequired_eq_false_iff :
    t.itemsRequired = false ↔
      ∀ item required, (list item required).Within t → item.required = false := by
  induction t with
  | named n r =>
    refine iff_of_true rfl ?_
    rintro item required ⟨⟩
  | list item r ih =>
    rw [itemsRequired, Bool.or_eq_false_iff, ih]
    constructor
    · rintro ⟨hitem, hdeeper⟩ item' required h
      cases h with
      | self => exact hitem
      | item h => exact hdeeper item' required h
    · intro h
      exact ⟨h item r .self, fun item' required h' => h item' required (.item h')⟩

theorem toList_print (t : TypeRef) : t.print.toList = t.chars := String.toList_ofList

theorem not_mem_of_isMark {c : Char} (h : ∀ c ∈ n.toList, isMark c = false)
    (hc : isMark c = true) : c ∉ n.toList := by
  intro hmem
  rw [h c hmem] at hc
  cases hc

theorem filter_chars (h : ∀ c ∈ t.name.toList, isMark c = false) :
    (t.chars.filter fun c => !isMark c) = t.name.toList := by
  induction t with
  | named n r =>
    have hname : (n.toList.filter fun c => !isMark c) = n.toList :=
      List.filter_eq_self.2 fun c hc => by rw [h c hc, Bool.not_false]
    rw [chars, List.filter_append, hname]
    cases r <;> simp [name]
  | list item r ih =>
    have hitem := ih h
    cases r <;> simp [chars, name, hitem]

theorem count_chars (h : ∀ c ∈ t.name.toList, isMark c = false) :
    t.chars.count '[' = t.dimension := by
  induction t with
  | named n r =>
    have hname : n.toList.count '[' = 0 := List.count_eq_zero.2 (not_mem_of_isMark h rfl)
    cases r <;> simp [chars, dimension, hname]
  | list item r ih =>
    have hitem := ih h
    cases r <;> simp [chars, dimension, hitem]

/-- An exclamation mark stands at the end where null is excluded. -/
theorem suffix_chars (h : ∀ c ∈ t.name.toList, isMark c = false) :
    ['!'] <:+ t.chars ↔ t.required = true := by
  cases t with
  | named n r =>
    cases r with
    | true => exact iff_of_true (List.suffix_append _ _) rfl
    | false =>
      have hname : ¬ ['!'] <:+ n.toList :=
        fun hs => not_mem_of_isMark h rfl (hs.subset (List.mem_singleton_self _))
      simpa [chars, TypeRef.required] using hname
  | list item r =>
    cases r with
    | true =>
      refine iff_of_true ⟨'[' :: item.chars ++ [']'], ?_⟩ rfl
      simp [chars]
    | false =>
      have hchars : (list item false).chars = ('[' :: item.chars) ++ [']'] := by simp [chars]
      rw [hchars, List.suffix_concat_iff]
      simp [TypeRef.required, List.cons_eq_append_iff]

/-- An exclamation mark before a closing bracket is the end of the item of a list, or stands inside
the item. What follows the bracket makes no difference. -/
theorem infix_chars_list :
    ['!', ']'] <:+: (list item required).chars ↔
      ['!'] <:+ item.chars ∨ ['!', ']'] <:+: item.chars := by
  have hclosed : ['!', ']'] <:+: item.chars ++ [']'] ↔
      ['!'] <:+ item.chars ∨ ['!', ']'] <:+: item.chars := by
    have hend : ['!'] ++ [']'] <:+ item.chars ++ [']'] ↔ ['!'] <:+ item.chars := by
      rw [List.suffix_append_inj_of_length_eq rfl, and_iff_left rfl]
    rw [List.infix_concat_iff, ← hend]
    rfl
  cases required with
  | false => simpa [chars, List.infix_cons_iff] using hclosed
  | true =>
    have hchars : (list item true).chars = '[' :: ((item.chars ++ [']']) ++ ['!']) := by
      simp [chars]
    rw [hchars, List.infix_cons_iff, List.infix_concat_iff, List.suffix_concat_iff, hclosed]
    simp [List.cons_eq_append_iff]

theorem infix_chars (h : ∀ c ∈ t.name.toList, isMark c = false) :
    ['!', ']'] <:+: t.chars ↔ t.itemsRequired = true := by
  induction t with
  | named n r =>
    have hname : ']' ∉ n.toList := not_mem_of_isMark h rfl
    have hclosing : ']' ∉ (named n r).chars := by cases r <;> simpa [chars] using hname
    exact iff_of_false (fun hi => hclosing (hi.subset (.tail _ (.head _)))) Bool.false_ne_true
  | list item r ih =>
    have hitem : ∀ c ∈ item.name.toList, isMark c = false := h
    rw [infix_chars_list, suffix_chars hitem, ih hitem, itemsRequired, Bool.or_eq_true]

theorem mem_chars (h : ∀ c ∈ t.name.toList, isMark c = false) :
    '[' ∈ t.chars ↔ 0 < t.dimension := by
  rw [← count_chars h, List.count_pos_iff]

end Reading

/-- The description of a reference to a type, as long as the type's name has no brackets and no
exclamation marks, is the reading of the printed reference. The name is what is left without
brackets and exclamation marks, and is the name by which a schema finds the type; the dimension
counts the opening brackets; a value is required where the last character is an exclamation mark;
and an array is nullable where nowhere an exclamation mark stands before a closing bracket, that is,
where no list inside the reference requires its items. -/
theorem resolve_reads_print {t : TypeRef} {n : String} {required : Bool}
    (hn : (named n required).Within t) (hmarks : ∀ c ∈ n.toList, isMark c = false) :
    (t.resolve.name = n ∧ String.ofList (t.print.toList.filter fun c => !isMark c) = n ∧
      ∀ s : Schema, (s.typeUse t).kind = (s.body? n).map TypeBody.kind) ∧
    t.resolve.dimension = t.print.toList.count '[' ∧
    (t.resolve.isArray = true ↔ '[' ∈ t.print.toList) ∧
    (t.resolve.isRequired = true ↔ ['!'] <:+ t.print.toList) ∧
    (t.resolve.isNullableArray = true ↔
      '[' ∈ t.print.toList ∧ ¬ ['!', ']'] <:+: t.print.toList) ∧
    (t.resolve.isNullableArray = true ↔
      '[' ∈ t.print.toList ∧
        ∀ item required, (list item required).Within t → item.required = false) := by
  obtain rfl : t.name = n := name_eq_of_within hn
  have hnullable : t.resolve.isNullableArray = true ↔
      '[' ∈ t.chars ∧ t.itemsRequired = false := by
    rw [mem_chars hmarks]
    simp [resolve]
  rw [toList_print, hnullable]
  refine ⟨⟨rfl, ?_, fun s => rfl⟩, (count_chars hmarks).symm, ?_, (suffix_chars hmarks).symm, ?_,
    ?_⟩
  · rw [filter_chars hmarks, String.ofList_toList]
  · rw [mem_chars hmarks]
    simp [resolve]
  · rw [infix_chars hmarks, Bool.not_eq_true]
  · rw [itemsRequired_eq_false_iff]

/-- Of `[[Int!]]!` the inner list requires its items. -/
theorem resolve_reads_print_matrix :
    ∃ t : TypeRef, t.print = "[[Int!]]!" ∧ t.resolve.name = "Int" ∧ t.resolve.dimension = 2 ∧
      t.resolve.isRequired = true ∧ t.resolve.isNullableArray = false := by
  refine ⟨.list (.list (.named "Int" true) false) true, rfl, ?_⟩
  have hmarks : ∀ c ∈ ['I', 'n', 't'], isMark c = false := by simp [isMark]
  obtain ⟨⟨hname, -⟩, hdimension, -, hrequired, hnullable, -⟩ :=
    resolve_reads_print (t := .list (.list (.named "Int" true) false) true) (.item (.item .self))
      hmarks
  refine ⟨hname, hdimension.trans (by decide), hrequired.2 (by decide), ?_⟩
  rw [Bool.eq_false_iff, Ne, hnullable]
  decide

end TypeRef
end SchemaContext
