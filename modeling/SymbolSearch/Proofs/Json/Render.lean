import SymbolSearch.Json
import SymbolSearch.Proofs.Json.Grammar
import SymbolSearch.Proofs.Text.Numeral

/-!
This module contains the proof that the text of every value is a document that says this value.
-/

namespace SymbolSearch.Json

mutual

def tree : Json → Tree
  | boolean value => .boolean value
  | number n => .number n
  | string s => .string s
  | array items => .array (trees items)
  | object fields => .object (fieldTrees fields)

def trees : List Json → List Tree
  | [] => []
  | item :: rest => item.tree :: trees rest

def fieldTrees : List (String × Json) → List (String × Tree)
  | [] => []
  | (name, value) :: rest => (name, value.tree) :: fieldTrees rest

end

theorem trees_eq_map (items : List Json) : trees items = items.map tree := by
  induction items with
  | nil => rfl
  | cons item rest ih => rw [trees, ih, List.map_cons]

theorem spells_control {c : Char} (h : c.toNat < 0x20) :
    Spells c ['\\', 'u', '0', '0', hexDigit (c.toNat / 16), hexDigit (c.toNat % 16)] := by
  have hhex : ∀ n < 0x20,
      let digits := ['0', '0', hexDigit (n / 16), hexDigit (n % 16)]
      digits.all (Text.isDigitIn 16) ∧ Text.numeral 16 digits = n := by decide
  obtain ⟨hall, hvalue⟩ := hhex c.toNat h
  exact .fourDigits ⟨_, hall, hvalue⟩ rfl

theorem spells_escape (c : Char) : Spells c (escape c) := by
  unfold escape
  split_ifs with hquote hbackslash hname hname hname hname hname hcontrol
  case neg => exact .raw (Nat.le_of_not_lt hcontrol) hquote hbackslash
  any_goals
    subst c
    exact .letter (by decide)
  exact spells_control hcontrol

theorem body_flatMap_escape (chars : List Char) : Body chars (chars.flatMap escape ++ ['"']) := by
  induction chars with
  | nil => exact .close
  | cons c chars ih =>
    rw [List.flatMap_cons, List.append_assoc]
    exact .char (spells_escape c) ih

/--
The number without sign, point and exponent.
-/
def Numeral.ofNat (n : Nat) : Numeral where
  negative := false
  whole := Nat.toDigits 10 n
  fraction? := none
  exponent? := none
  hwhole := Text.all_isDigit_toDigits n
  hfraction := by
    intro fraction h
    contradiction
  hdigits := by
    rw [Option.getD_none, List.append_nil]
    exact Nat.toDigits_ne_nil
  hstart := fun _ => Nat.toDigits_ne_nil
  hne := Nat.toDigits_ne_nil
  hzero := by
    intro h
    rw [Text.eq_zero_of_head?_toDigits h, Nat.toDigits_zero]
  hpoint := by
    intro h
    contradiction

theorem Numeral.text_ofNat (n : Nat) : (ofNat n).text = Nat.toDigits 10 n := by
  simp [ofNat, Literal.Numeral.text]

theorem Numeral.value_ofNat (n : Nat) : (ofNat n).value = n := by
  simp [ofNat, value, Literal.Numeral.significand, Literal.Numeral.exponent, Literal.signed,
    Text.numeral_toDigits]

theorem writes_quote (s : String) : Writes (.string s) (quote s) := by
  have h := Writes.string (body_flatMap_escape s.toList)
  rw [String.ofList_toList] at h
  exact h

theorem writesField_quote {name : String} {value : Tree} {text : List Char} (h : Writes value text) :
    WritesField (name, value) (quote name ++ ':' :: text) := by
  have hfield : WritesField (.ofList name.toList, value)
      ('"' :: (name.toList.flatMap escape ++ ['"'] ++ ([] ++ ':' :: ([] ++ text)))) :=
    .colon (body_flatMap_escape name.toList) rfl rfl h
  rw [String.ofList_toList] at hfield
  rw [quote, List.cons_append, List.cons_append]
  exact hfield

section

variable {α : Type} {writes : α → List Char → Prop} {close : Char} {part : α} {text : List Char}

theorem Row.singleton (h : writes part text) : Row writes close [part] (text ++ [close]) := by
  have hrow : Row writes close [part] ([] ++ (text ++ ([] ++ [close]))) := .last rfl h rfl
  exact hrow

theorem Row.cons {next : α} {parts : List α} {rest : List Char} (h : writes part text)
    (hrest : Row writes close (next :: parts) rest) :
    Row writes close (part :: next :: parts) (text ++ ',' :: rest) := by
  have hrow : Row writes close (part :: next :: parts) ([] ++ (text ++ ([] ++ ',' :: rest))) :=
    .more rfl h rfl hrest
  exact hrow

end

mutual

theorem writes_render (json : Json) : Writes json.tree json.render := by
  cases json with
  | boolean value =>
    cases value with
    | false => exact .no
    | true => exact .yes
  | number n =>
    have h := Writes.number (.ofNat n)
    rw [Numeral.text_ofNat, Numeral.value_ofNat] at h
    exact h
  | string s => exact writes_quote s
  | array items => exact .array (row_renderItems items)
  | object fields => exact .object (row_renderFields fields)

theorem row_renderItems (items : List Json) :
    Row Writes ']' (trees items) (renderItems items ++ [']']) := by
  match items with
  | [] => exact .empty rfl
  | [item] => exact .singleton (writes_render item)
  | item :: next :: rest =>
    rw [renderItems, List.append_assoc]
    exact .cons (writes_render item) (row_renderItems (next :: rest))

theorem row_renderFields (fields : List (String × Json)) :
    Row WritesField '}' (fieldTrees fields) (renderFields fields ++ ['}']) := by
  match fields with
  | [] => exact .empty rfl
  | [(name, value)] => exact .singleton (writesField_quote (writes_render value))
  | (name, value) :: next :: rest =>
    rw [renderFields, List.append_assoc]
    exact .cons (writesField_quote (writes_render value)) (row_renderFields (next :: rest))

end

theorem document_render (json : Json) : Document (.ofList json.render) json.tree :=
  ⟨[], json.render, [], rfl, rfl, writes_render json, by simp⟩

end SymbolSearch.Json
