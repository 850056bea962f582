import Mathlib.Data.List.Basic

/-!
# JSON values (`serde_json::Value`)

Numbers are kept as their literals. An object is a map: only the value under a key is
observed, never the order of the fields.
-/

namespace Xerv

inductive Json where
  | null
  | bool (b : Bool)
  | number (literal : String)
  | string (s : String)
  | array (items : List Json)
  | object (fields : List (String × Json))
  deriving Repr

namespace Json

mutual

def decEq : (a b : Json) → Decidable (a = b)
  | null, null => isTrue rfl
  | bool b, bool c =>
    if h : b = c then isTrue (by rw [h]) else isFalse fun he => h (by injection he)
  | number x, number y =>
    if h : x = y then isTrue (by rw [h]) else isFalse fun he => h (by injection he)
  | string s, string t =>
    if h : s = t then isTrue (by rw [h]) else isFalse fun he => h (by injection he)
  | array xs, array ys =>
    match decEqItems xs ys with
    | isTrue h => isTrue (by rw [h])
    | isFalse h => isFalse fun he => h (by injection he)
  | object xs, object ys =>
    match decEqFields xs ys with
    | isTrue h => isTrue (by rw [h])
    | isFalse h => isFalse fun he => h (by injection he)
  | null, bool _ | null, number _ | null, string _ | null, array _ | null, object _
  | bool _, null | bool _, number _ | bool _, string _ | bool _, array _ | bool _, object _
  | number _, null | number _, bool _ | number _, string _ | number _, array _ | number _, object _
  | string _, null | string _, bool _ | string _, number _ | string _, array _ | string _, object _
  | array _, null | array _, bool _ | array _, number _ | array _, string _ | array _, object _
  | object _, null | object _, bool _ | object _, number _ | object _, string _ | object _, array _ =>
    isFalse nofun

def decEqItems : (xs ys : List Json) → Decidable (xs = ys)
  | [], [] => isTrue rfl
  | x :: xs, y :: ys =>
    match decEq x y, decEqItems xs ys with
    | isTrue h, isTrue h' => isTrue (by rw [h, h'])
    | isFalse h, _ => isFalse fun he => h (by injection he)
    | _, isFalse h => isFalse fun he => h (by injection he)
  | [], _ :: _ | _ :: _, [] => isFalse nofun

def decEqFields : (xs ys : List (String × Json)) → Decidable (xs = ys)
  | [], [] => isTrue rfl
  | (k, x) :: xs, (l, y) :: ys =>
    if hk : k = l then
      match decEq x y, decEqFields xs ys with
      | isTrue h, isTrue h' => isTrue (by rw [hk, h, h'])
      | isFalse h, _ => isFalse fun he => h (by injection he with he _; injection he)
      | _, isFalse h => isFalse fun he => h (by injection he)
    else isFalse fun he => hk (by injection he with he _; injection he)
  | [], _ :: _ | _ :: _, [] => isFalse nofun

end

instance : DecidableEq Json := decEq

/-- `Value::get` with a string index. -/
def get (v : Json) (key : String) : Option Json :=
  match v with
  | object fields => (fields.find? fun f => f.1 = key).map Prod.snd
  | _ => none

def asStr : Json → Option String
  | string s => some s
  | _ => none

/-- `Map::insert` through `as_object_mut`: a value that is no object stays as it is. -/
def insert (v : Json) (key : String) (value : Json) : Json :=
  match v with
  | object fields => object ((key, value) :: fields.filter fun f => f.1 ≠ key)
  | v => v

theorem get_insert_self (fields : List (String × Json)) (key : String) (value : Json) :
    ((object fields).insert key value).get key = some value := by
  simp [insert, get]

theorem get_insert_ne (v : Json) (key k : String) (value : Json) (h : k ≠ key) :
    (v.insert key value).get k = v.get k := by
  cases v with
  | object fields =>
    have hk : ¬ key = k := fun he => h he.symm
    have hfind : (fields.filter fun f => f.1 ≠ key).find? (fun f => f.1 = k) =
        fields.find? fun f => f.1 = k := by
      rw [List.find?_filter]
      congr 1
      funext f
      by_cases hf : f.1 = k
      · simp [hf, h]
      · simp [hf]
    simp only [insert, get, List.find?_cons, decide_eq_false hk, hfind]
  | _ => rfl

theorem get_object_iff (fields : List (String × Json)) (h : (fields.map Prod.fst).Nodup) (key : String)
    (value : Json) : (object fields).get key = some value ↔ (key, value) ∈ fields := by
  induction fields with
  | nil => simp [get]
  | cons f fields ih =>
    obtain ⟨hnew, hrest⟩ := List.nodup_cons.mp h
    have ih := ih hrest
    by_cases hf : f.1 = key
    · have hnone : (key, value) ∉ fields := by
        intro hmem
        rw [hf] at hnew
        exact hnew (List.mem_map_of_mem hmem)
      have hfield : (key, value) = f ↔ f.2 = value := by
        constructor
        · intro he
          rw [← he]
        · intro he
          rw [← he, ← hf]
      simp only [get, List.find?_cons, hf, decide_true, Option.map_some, Option.some.injEq,
        List.mem_cons, hnone, or_false, hfield]
    · have hne : ¬ (key, value) = f := by
        intro he
        rw [← he] at hf
        exact hf rfl
      simp only [get, List.find?_cons, hf, decide_false, List.mem_cons, hne, false_or]
      exact ih

end Json

/-- The fields of an object (`serde_json::Map`). -/
abbrev JsonMap := List (String × Json)

namespace JsonMap

def get (map : JsonMap) (key : String) : Option Json := (map.find? fun f => f.1 = key).map Prod.snd

def insert (map : JsonMap) (key : String) (value : Json) : JsonMap := (key, value) :: map.filter fun f => f.1 ≠ key

end JsonMap

end Xerv
