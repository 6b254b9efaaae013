/-!
This module contains the values that a literal writes.
-/

namespace SymbolSearch.Literal

/--
The value of a literal. Whole numbers that fit into 64 bits are integers, all others are decimals.
-/
inductive Value
  | null
  | boolean (value : Bool)
  | integer (value : Int)
  /-- The number `significand * 10 ^ exponent`. -/
  | decimal (significand exponent : Int)
  | string (text : String)
  | array (items : List Value)
  deriving Repr, Inhabited

namespace Value

def beq : Value → Value → Bool
  | null, null => true
  | boolean a, boolean b => a == b
  | integer a, integer b => a == b
  | decimal significand exponent, decimal significand' exponent' =>
    significand == significand' && exponent == exponent'
  | string a, string b => a == b
  | array as, array bs => go as bs
  | _, _ => false
where
  go : List Value → List Value → Bool
    | [], [] => true
    | a :: as, b :: bs => a.beq b && go as bs
    | _, _ => false

mutual

theorem eq_of_beq : (a b : Value) → a.beq b = true → a = b
  | array as, array bs, h => by
    rw [beq.eq_def] at h
    exact congrArg array (eq_of_beq_go as bs h)
  | null, b, h | boolean _, b, h | integer _, b, h | decimal _ _, b, h | string _, b, h => by
    cases b <;> simp_all [beq]

theorem eq_of_beq_go : (as bs : List Value) → beq.go as bs = true → as = bs
  | [], [], _ => rfl
  | a :: as, b :: bs, h => by
    simp only [beq.go, Bool.and_eq_true] at h
    rw [eq_of_beq a b h.1, eq_of_beq_go as bs h.2]

end

theorem beq_self : (a : Value) → a.beq a = true
  | array as => go as
  | null | boolean _ | integer _ | decimal _ _ | string _ => by simp [beq]
where
  go : (as : List Value) → beq.go as as = true
    | [] => rfl
    | a :: as => by simp [beq.go, beq_self a, go as]

instance : DecidableEq Value := fun a b =>
  decidable_of_iff (a.beq b = true) ⟨eq_of_beq a b, by rintro rfl; exact beq_self a⟩

end Value

/--
What kind of value a value is, for complaints about one that was not expected.
-/
inductive Form
  | null
  | boolean
  | number
  | string
  | array
  deriving Repr, DecidableEq

def Value.form : Value → Form
  | null => .null
  | boolean _ => .boolean
  | integer _ => .number
  | decimal _ _ => .number
  | string _ => .string
  | array _ => .array

def Form.description : Form → String
  | null => "null"
  | boolean => "a boolean"
  | number => "a number"
  | string => "a string"
  | array => "an array"

end SymbolSearch.Literal
