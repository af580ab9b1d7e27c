import RouteRegistry.Registry.SetDefault

/-!
# Grants of the admin role (`add_admin`, `remove_admin`)

Both services read `uow.user_repo`, a repository that `SqlUOW` does not have. What a
history of their calls is meant to do is `Store.granted`: for each user the last call that
names the uid decides. What each of them does is `grantCall_fails`.
-/

namespace RouteRegistry

open Relational UnitOfWork

/-- One call of a history of grants. -/
inductive GrantCall where
  | addAdmin (uid : String)
  | removeAdmin (uid : String)
deriving DecidableEq, Repr

namespace GrantCall

/-- The user the call names. -/
def uid : GrantCall → String
  | .addAdmin uid | .removeAdmin uid => uid

/-- The value of `is_admin` the call asks for. -/
def isAdmin : GrantCall → Bool
  | .addAdmin _ => true
  | .removeAdmin _ => false

def run (eng : Engine) : GrantCall → Service Unit
  | .addAdmin uid => RouteRegistry.addAdmin eng uid
  | .removeAdmin uid => RouteRegistry.removeAdmin eng uid

end GrantCall

/-- The database after a history of calls, whether they returned or raised. -/
def afterGrants (eng : Engine) (db : Database) (calls : List GrantCall) : Database :=
  calls.foldl (fun db call => (call.run eng).after db) db

/-- What the last call that names the uid asks for. -/
def lastGrant (calls : List GrantCall) (uid : Option String) : Option Bool :=
  (calls.reverse.find? fun call => decide (some call.uid = uid)).map GrantCall.isAdmin

/-- The store with the grants of a history in effect. -/
def Store.granted (s : Store) (calls : List GrantCall) : Store :=
  { s with users := s.users.map fun u => u.setAdmin ((lastGrant calls u.uid).getD u.isAdmin) }

theorem Store.granted_nil (s : Store) : s.granted [] = s := by
  unfold Store.granted
  have hsame : ∀ u : User, u.setAdmin ((lastGrant [] u.uid).getD u.isAdmin) = u := fun _ => rfl
  simp only [hsame, List.map_id']

/-- The uids of a store. -/
def Store.uids (s : Store) : List (Option String) := s.users.map User.uid

/-- Grants take effect: each call of the history, in the state the calls before it lead to,
returns for a stored uid and raises `NotFound` for an unknown one, and in the end every
user has the role the last call about them asks for. -/
structure GrantsTakeEffect (eng : Engine) (db : Database) (calls : List GrantCall) : Prop where
  stored : ∀ before call rest, calls = before ++ call :: rest →
    some call.uid ∈ (afterGrants eng db before).store.uids →
    ∃ db', call.run eng (afterGrants eng db before) = .ok () db'
  unknown : ∀ before call rest, calls = before ++ call :: rest →
    some call.uid ∉ (afterGrants eng db before).store.uids →
    ∃ e, e.cls = .notFound ∧
      call.run eng (afterGrants eng db before) = .error e (afterGrants eng db before)
  final : (afterGrants eng db calls).store = db.store.granted calls

section Calls

variable (eng : Engine) (db : Database)

/-- Every call fails at the missing attribute, whoever it names. -/
theorem grantCall_fails (call : GrantCall) :
    call.run eng db =
      .error ⟨.lib .attributeError, "'SqlUOW' object has no attribute 'user_repo'", none⟩ db := by
  cases call with
  | addAdmin uid =>
    show addAdmin eng uid db = _
    unfold addAdmin
    exact withUOW_raised (Txn.run_throw _)
  | removeAdmin uid =>
    show removeAdmin eng uid db = _
    unfold removeAdmin
    exact withUOW_raised (Txn.run_throw _)

/-- **Grants take effect in no history that makes a call.** -/
theorem grantsTakeEffect_iff (calls : List GrantCall) :
    GrantsTakeEffect eng db calls ↔ calls = [] := by
  constructor
  · intro h
    cases calls with
    | nil => rfl
    | cons call calls =>
      by_cases huid : some call.uid ∈ db.store.uids
      · obtain ⟨db', hok⟩ := h.stored [] call calls rfl huid
        have hfails := grantCall_fails eng db call
        exact absurd (hok.symm.trans hfails) (fun heq => by cases heq)
      · -- an unknown uid is not noticed either: the error is another one
        obtain ⟨e, hcls, herr⟩ := h.unknown [] call calls rfl huid
        have hfails := grantCall_fails eng db call
        cases herr.symm.trans hfails
        cases hcls
  · rintro rfl
    exact {
      stored := fun before call rest heq => by simp at heq
      unknown := fun before call rest heq => by simp at heq
      final := (Store.granted_nil _).symm }

end Calls

/-- Granting the role to a stored user raises, and the user is no admin. -/
theorem addAdmin_alice_fails :
    (∃ e, e.cls = .lib .attributeError ∧ addAdmin .sqlite "alice" oneRoute = .error e oneRoute) ∧
      some "alice" ∈ oneRoute.store.uids ∧
      ¬ GrantsTakeEffect .sqlite oneRoute [.addAdmin "alice"] := by
  refine ⟨⟨_, rfl, grantCall_fails .sqlite oneRoute (.addAdmin "alice")⟩, by decide, ?_⟩
  intro h
  obtain ⟨db', hok⟩ := h.stored [] (.addAdmin "alice") [] rfl (by decide)
  have hfails := grantCall_fails .sqlite oneRoute (.addAdmin "alice")
  exact absurd (hok.symm.trans hfails) (fun heq => by cases heq)

end RouteRegistry
