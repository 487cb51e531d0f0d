import Doorito.Common.Models

/-! The user table (`accounts/models.py`). Only the username is unique; nothing keeps two
users from having one email. -/

set_option autoImplicit false

namespace Doorito.Accounts

open Foundation Common

/-- `password` is the encoded one. -/
structure User where
  pk : Nat
  username : String
  email : String
  password : String
  isActive : Bool
deriving DecidableEq, Repr

structure UserTable where
  users : Table User.pk
  usernames : (users.rows.map (·.username)).Nodup

/-- What `objects.get` raises when it does not find one row. -/
inductive LookupError where
  | doesNotExist
  | multipleObjectsReturned
deriving DecidableEq, Repr

namespace UserTable

def rows (table : UserTable) : List User := table.users.rows

def getByEmail (table : UserTable) (email : String) : Except LookupError User :=
  match table.rows.filter (·.email = email) with
  | [] => .error .doesNotExist
  | [user] => .ok user
  | _ :: _ :: _ => .error .multipleObjectsReturned

/-- `get_by_natural_key`. -/
def getByUsername (table : UserTable) (username : String) : Option User :=
  table.rows.find? (·.username = username)

def insert? (table : UserTable) (user : User) : Option UserTable :=
  if fresh : user.pk ∉ table.users.keys then
    if free : user.username ∉ table.rows.map (·.username) then
      some ⟨table.users.append user fresh, by
        rw [Table.rows_append, List.map_append, List.nodup_append]
        refine ⟨table.usernames, List.nodup_singleton _, ?_⟩
        intro username member other single same
        rw [List.mem_singleton.mp single] at same
        change username = user.username at same
        exact free (same ▸ member)⟩
    else none
  else none

section Laws

variable {table grown : UserTable} {user : User}

theorem insert?_eq_some_iff :
    table.insert? user = some grown ↔
      user.pk ∉ table.users.keys ∧ user.username ∉ table.rows.map (·.username) ∧
        grown.rows = table.rows ++ [user] := by
  unfold insert?
  by_cases fresh : user.pk ∉ table.users.keys
  · by_cases free : user.username ∉ table.rows.map (·.username)
    · rw [dif_pos fresh, dif_pos free]
      constructor
      · intro inserted
        cases inserted
        exact ⟨fresh, free, rfl⟩
      · intro appended
        obtain ⟨_, _, shape⟩ := appended
        cases grown
        congr 2
        exact Table.ext shape.symm
    · rw [dif_pos fresh, dif_neg free]
      simp only [reduceCtorEq, false_iff]
      exact fun both => free both.2.1
  · rw [dif_neg fresh]
    simp only [reduceCtorEq, false_iff]
    exact fun both => fresh both.1

theorem getByUsername_eq_some {username : String}
    (found : table.getByUsername username = some user) :
    user ∈ table.rows ∧ user.username = username :=
  ⟨List.mem_of_find?_eq_some found, by simpa using List.find?_some found⟩

theorem getByUsername_of_mem (member : user ∈ table.rows) :
    table.getByUsername user.username = some user := by
  cases found : table.getByUsername user.username with
  | none =>
      have absent := List.find?_eq_none.mp found user member
      simp at absent
  | some other =>
      obtain ⟨otherMember, named⟩ := getByUsername_eq_some found
      exact congrArg some (List.inj_on_of_nodup_map table.usernames otherMember member named)

theorem getByEmail_eq_ok {email : String} (found : table.getByEmail email = .ok user) :
    table.rows.filter (·.email = email) = [user] := by
  unfold getByEmail at found
  split at found <;> cases found
  assumption

theorem getByEmail_of_filter {email : String}
    (same : grown.rows.filter (·.email = email) = table.rows.filter (·.email = email)) :
    grown.getByEmail email = table.getByEmail email := by
  rw [getByEmail, getByEmail, same]

end Laws

end UserTable

end Doorito.Accounts
