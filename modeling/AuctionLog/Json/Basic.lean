import AuctionLog.Json.Number

namespace AuctionLog

/-- A JSON value. Objects list their members in the order they are written in. -/
inductive Json where
  | null
  | bool (value : Bool)
  | num (value : Json.Number)
  | str (value : String)
  | arr (items : List Json)
  | obj (members : List (String × Json))
deriving Inhabited

namespace Json

mutual

def decEq : (left right : Json) → Decidable (left = right)
  | .null, .null => .isTrue rfl
  | .bool left, .bool right => decidable_of_iff (left = right) (by simp)
  | .num left, .num right => decidable_of_iff (left = right) (by simp)
  | .str left, .str right => decidable_of_iff (left = right) (by simp)
  | .arr left, .arr right =>
      match decEqItems left right with
      | .isTrue h => .isTrue (by rw [h])
      | .isFalse h => .isFalse (by simpa using h)
  | .obj left, .obj right =>
      match decEqMembers left right with
      | .isTrue h => .isTrue (by rw [h])
      | .isFalse h => .isFalse (by simpa using h)
  | .null, .bool _ | .null, .num _ | .null, .str _ | .null, .arr _ | .null, .obj _
  | .bool _, .null | .bool _, .num _ | .bool _, .str _ | .bool _, .arr _ | .bool _, .obj _
  | .num _, .null | .num _, .bool _ | .num _, .str _ | .num _, .arr _ | .num _, .obj _
  | .str _, .null | .str _, .bool _ | .str _, .num _ | .str _, .arr _ | .str _, .obj _
  | .arr _, .null | .arr _, .bool _ | .arr _, .num _ | .arr _, .str _ | .arr _, .obj _
  | .obj _, .null | .obj _, .bool _ | .obj _, .num _ | .obj _, .str _ | .obj _, .arr _ =>
      .isFalse (by simp)

def decEqItems : (left right : List Json) → Decidable (left = right)
  | [], [] => .isTrue rfl
  | [], _ :: _ | _ :: _, [] => .isFalse (by simp)
  | left :: lefts, right :: rights =>
      match decEq left right, decEqItems lefts rights with
      | .isTrue h, .isTrue hs => .isTrue (by rw [h, hs])
      | .isFalse h, _ => .isFalse (by simp [h])
      | _, .isFalse hs => .isFalse (by simp [hs])

def decEqMembers : (left right : List (String × Json)) → Decidable (left = right)
  | [], [] => .isTrue rfl
  | [], _ :: _ | _ :: _, [] => .isFalse (by simp)
  | (leftName, left) :: lefts, (rightName, right) :: rights =>
      match decEq left right, decEqMembers lefts rights with
      | .isTrue h, .isTrue hs =>
          decidable_of_iff (leftName = rightName) (by simp [h, hs])
      | .isFalse h, _ => .isFalse (by simp [h])
      | _, .isFalse hs => .isFalse (by simp [hs])

end

instance : DecidableEq Json := decEq

abbrev Members := List (String × Json)

/-- Puts a member in its place by the order of names, unless there is one of that name. -/
def Members.insert (name : String) (value : Json) : Members → Members
  | [] => [(name, value)]
  | (other, held) :: rest =>
      if name < other then (name, value) :: (other, held) :: rest
      else if name = other then (other, held) :: rest
      else (other, held) :: Members.insert name value rest

/-- Members in the order of their names, where the last of each name stays. -/
def Members.ofList : List (String × Json) → Members
  | [] => []
  | (name, value) :: rest => Members.insert name value (Members.ofList rest)

def Members.get? (members : Members) (name : String) : Option Json :=
  List.lookup name members

mutual

/-- The value as it is told apart from others: the members of its objects are in the order of their
names at every depth, and of each name only the last one stays. -/
def arranged : Json → Json
  | .arr items => .arr (arrangedItems items)
  | .obj members => .obj (Members.ofList (arrangedMembers members))
  | scalar => scalar

def arrangedItems : List Json → List Json
  | [] => []
  | item :: rest => item.arranged :: arrangedItems rest

def arrangedMembers : List (String × Json) → List (String × Json)
  | [] => []
  | (name, value) :: rest => (name, value.arranged) :: arrangedMembers rest

end

def get? (value : Json) (name : String) : Option Json :=
  match value with
  | .obj members => Members.get? members name
  | _ => none

def isNull : Json → Bool
  | .null => true
  | _ => false

/-- A member that is left out when there is nothing to write. -/
def member? (name : String) (value : Option Json) : Members :=
  match value with
  | none => []
  | some value => [(name, value)]

end Json

end AuctionLog
