/-!
# Records

A record is a list of keys with values in which no key comes twice. Setting a key that is there
replaces its value and keeps its place; a new key goes to the end. Keys are compared by a given
test, so that keys with different spellings may count as one; the first spelling stays.

* `Record.set` : one key set.
* `Record.get?` : the value of a key.
-/

namespace ArithTree.Record

variable {κ β : Type}

/-- The record with `key` set to `value`. -/
def set (same : κ → κ → Bool) (key : κ) (value : β) : List (κ × β) → List (κ × β)
  | [] => [(key, value)]
  | (k, v) :: record =>
    if same k key then (k, value) :: record else (k, v) :: set same key value record

/-- The record with keys set one after the other. -/
def setAll (same : κ → κ → Bool) (record : List (κ × β)) (changes : List (κ × β)) :
    List (κ × β) :=
  changes.foldl (fun record (key, value) => set same key value record) record

/-- The value of a key. -/
def get? (same : κ → κ → Bool) (key : κ) : List (κ × β) → Option β
  | [] => none
  | (k, v) :: record => if same k key then some v else get? same key record

end ArithTree.Record
