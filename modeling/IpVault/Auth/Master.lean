import IpVault.Error
import IpVault.Schema.Entities

set_option autoImplicit false

/-! # The pinned master key (`master.rs`)

Which key is master is decided once and kept. A key record that claims to be master and is not
the pinned one goes on as an ordinary key.
-/

namespace IpVault

/-- `MasterPinError`. -/
inductive MasterPinError where
  | NoMaster
  | MultipleMasters (ids : List Uuid)
  | MissingUniquenessIndex
  | Query (err : DbErr)
  deriving DecidableEq

/-- What the database answers when the pin is resolved: the identifiers of the rows with
`is_master`, and whether the index that keeps them to one still exists. -/
structure MasterView where
  masters : Except DbErr (List Uuid)
  has_index : Except DbErr Bool

/-- `MasterPin`: a cell that is written at most once. -/
structure MasterPin where
  cell : Option Uuid
  deriving DecidableEq

namespace MasterPin

/-- `MasterPin::new`. -/
def new : MasterPin := ⟨none⟩

/-- `MasterPin::sole_master`. -/
def sole_master (view : MasterView) : Except MasterPinError Uuid :=
  match view.masters with
  | .error e => .error (.Query e)
  | .ok [only] => .ok only
  | .ok [] => .error .NoMaster
  | .ok many => .error (.MultipleMasters many)

/-- The index check of `pin_at_boot`. -/
def check_index (view : MasterView) : Except MasterPinError Unit :=
  match view.has_index with
  | .error e => .error (.Query e)
  | .ok true => .ok ()
  | .ok false => .error .MissingUniquenessIndex

/-- `MasterPin::pin_at_boot`. -/
def pin_at_boot (pin : MasterPin) (view : MasterView) : Except MasterPinError Uuid × MasterPin :=
  match pin.cell with
  | some pinned => (.ok pinned, pin)
  | none =>
      match sole_master view with
      | .error e => (.error e, pin)
      | .ok pinned =>
          match check_index view with
          | .error e => (.error e, pin)
          | .ok () => (.ok pinned, ⟨some pinned⟩)

/-- `MasterPin::resolve`: no key is master when none can be established. -/
def resolve (pin : MasterPin) (view : MasterView) : Option Uuid × MasterPin :=
  match pin.pin_at_boot view with
  | (.ok id, pin) => (some id, pin)
  | (.error _, pin) => (none, pin)

/-- `MasterPin::authenticate`: the effective principal. -/
def authenticate (pin : MasterPin) (view : MasterView) (key : ApiKey) : ApiKey × MasterPin :=
  if !key.is_master then (key, pin)
  else
    let (pinned, pin) := pin.resolve view
    if pinned = some key.id then (key, pin) else ({ key with is_master := false }, pin)

/-- **The pin never moves** once it is set. -/
theorem authenticate_pinned {pin : MasterPin} {id : Uuid} (h : pin.cell = some id)
    (view : MasterView) (key : ApiKey) : (pin.authenticate view key).2 = pin := by
  unfold authenticate resolve pin_at_boot
  rw [h]
  by_cases hm : key.is_master = true
  · by_cases hk : some id = some key.id
    · simp [hm, hk]
    · simp [hm, hk]
  · simp [hm]

end MasterPin

end IpVault
