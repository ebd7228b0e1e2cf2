import Mathlib.Data.List.Induction
import AccessControl.Proofs.Directory.Basic

namespace AccessControl

open Function

/-- What the last of these tells that tells anything. -/
def lastTold (tells : ι → Option α) (changes : List ι) : Option α :=
  (changes.filterMap tells).getLast?

namespace Write

def provider? (user : UserId) : Write → Option AuthProvider
  | addUser other provider => if other = user then some provider else none
  | _ => none

def verification? (user : UserId) : Write → Option (Option Timestamp)
  | setVerification other verifiedAt => if other = user then some verifiedAt else none
  | _ => none

def requirement? : Write → Option Bool
  | requireVerification required => some required
  | _ => none

end Write

theorem lastTold_append (tells : ι → Option α) (changes : List ι) (change : ι) :
    lastTold tells (changes ++ [change]) = (tells change).or (lastTold tells changes) := by
  rw [lastTold, List.filterMap_append, List.getLast?_append, List.filterMap_cons]
  cases tells change <;> rfl

theorem lastTold_congr {tells others : ι → Option α} {changes : List ι}
    (same : ∀ change ∈ changes, tells change = others change) : lastTold tells changes = lastTold others changes := by
  rw [lastTold, lastTold, List.filterMap_congr same]

namespace Directory

/-- Where each write sets what is seen to what it tells, and else leaves it, the last to tell anything decides. -/
theorem see_foldl_apply (see : Directory → β) (tells : Write → Option α) (set : α → β)
    (keep : AuthProvider → AuthProvider)
    (apply_seen : ∀ directory change, see (apply keep directory change) = ((tells change).map set).getD (see directory))
    (directory : Directory) (changes : List Write) :
    see (changes.foldl (apply keep) directory) = ((lastTold tells changes).map set).getD (see directory) := by
  induction changes using List.reverseRecOn with
  | nil => rfl
  | append_singleton changes change ih =>
    rw [List.foldl_append, List.foldl_cons, List.foldl_nil, apply_seen, ih, lastTold_append]
    cases tells change <;> rfl

theorem provider_foldl_apply (keep : AuthProvider → AuthProvider) (directory : Directory) (changes : List Write)
    (user : UserId) :
    ((changes.foldl (apply keep) directory).account user).map Account.provider =
      ((lastTold (Write.provider? user) changes).map (some ∘ keep)).getD
        ((directory.account user).map Account.provider) := by
  refine see_foldl_apply (fun directory => (directory.account user).map Account.provider) _ _ keep
    (fun directory change => ?_) directory changes
  cases change with
  | addUser other provider =>
    by_cases same : other = user
    · simp [apply, Write.provider?, same]
    · simp [apply, Write.provider?, same, update_of_ne (Ne.symm same)]
  | setRoot other isRoot =>
    by_cases same : other = user
    · subst same
      cases found : directory.account other <;> simp [apply, Write.provider?, found]
    · simp [apply, Write.provider?, update_of_ne (Ne.symm same)]
  | _ => rfl

theorem verification_foldl_apply (keep : AuthProvider → AuthProvider) (directory : Directory) (changes : List Write)
    (user : UserId) :
    (changes.foldl (apply keep) directory).verification user =
      ((lastTold (Write.verification? user) changes).map fun verifiedAt => some ⟨user, verifiedAt⟩).getD
        (directory.verification user) := by
  refine see_foldl_apply (fun directory => directory.verification user) _ _ keep (fun directory change => ?_)
    directory changes
  cases change with
  | setVerification other verifiedAt =>
    by_cases same : other = user
    · simp [apply, Write.verification?, same]
    · simp [apply, Write.verification?, same, update_of_ne (Ne.symm same)]
  | _ => rfl

theorem verificationRequired_foldl_apply (keep : AuthProvider → AuthProvider) (directory : Directory)
    (changes : List Write) :
    (changes.foldl (apply keep) directory).verificationRequired =
      (lastTold Write.requirement? changes).getD directory.verificationRequired := by
  rw [see_foldl_apply verificationRequired Write.requirement? id keep, Option.map_id_fun, id]
  intro directory change
  cases change <;> rfl

end Directory

end AccessControl
