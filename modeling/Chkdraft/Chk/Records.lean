import Chkdraft.Core.Codec

/-!
# Packed records of a scenario file

The structures of `Chk.h` that scenario sections store as byte blocks.  They
are declared under `#pragma pack(1)`, so a structure in memory is its fields
written one after the other and reading `sizeof` bytes over it sets every
field.  Each structure therefore has a codec made of the codecs of its fields.
-/

namespace Chkdraft.Chk

open Binary

/-- `Chk::Unit`, 36 bytes. -/
structure Unit where
  classId : UInt32
  xc : UInt16
  yc : UInt16
  type : UInt16
  relationFlags : UInt16
  validStateFlags : UInt16
  validFieldFlags : UInt16
  owner : UInt8
  hitpointPercent : UInt8
  shieldPercent : UInt8
  energyPercent : UInt8
  resourceAmount : UInt32
  hangerAmount : UInt16
  stateFlags : UInt16
  unused : UInt32
  relationClassId : UInt32
deriving DecidableEq

def unitCodec : Codec Unit :=
  (Codec.u32.pair <| Codec.u16.pair <| Codec.u16.pair <| Codec.u16.pair <|
    Codec.u16.pair <| Codec.u16.pair <| Codec.u16.pair <| Codec.u8.pair <|
    Codec.u8.pair <| Codec.u8.pair <| Codec.u8.pair <| Codec.u32.pair <|
    Codec.u16.pair <| Codec.u16.pair <| Codec.u32.pair Codec.u32).ofEquiv
  { toFun := fun u =>
      (u.classId, u.xc, u.yc, u.type, u.relationFlags, u.validStateFlags,
        u.validFieldFlags, u.owner, u.hitpointPercent, u.shieldPercent,
        u.energyPercent, u.resourceAmount, u.hangerAmount, u.stateFlags,
        u.unused, u.relationClassId)
    invFun := fun ⟨a, b, c, d, e, f, g, h, i, j, k, l, m, n, o, p⟩ =>
      ⟨a, b, c, d, e, f, g, h, i, j, k, l, m, n, o, p⟩
    left_inv := fun _ => rfl
    right_inv := fun _ => rfl }

/-- `Chk::IsomEntry`, 8 bytes. -/
structure IsomEntry where
  left : UInt16
  top : UInt16
  right : UInt16
  bottom : UInt16
deriving DecidableEq

def isomEntryCodec : Codec IsomEntry :=
  (Codec.u16.pair <| Codec.u16.pair <| Codec.u16.pair Codec.u16).ofEquiv
  { toFun := fun e => (e.left, e.top, e.right, e.bottom)
    invFun := fun ⟨a, b, c, d⟩ => ⟨a, b, c, d⟩
    left_inv := fun _ => rfl
    right_inv := fun _ => rfl }

/-- `Chk::Doodad`, 8 bytes. -/
structure Doodad where
  type : UInt16
  xc : UInt16
  yc : UInt16
  owner : UInt8
  enabled : UInt8
deriving DecidableEq

def doodadCodec : Codec Doodad :=
  (Codec.u16.pair <| Codec.u16.pair <| Codec.u16.pair <| Codec.u8.pair Codec.u8).ofEquiv
  { toFun := fun d => (d.type, d.xc, d.yc, d.owner, d.enabled)
    invFun := fun ⟨a, b, c, d, e⟩ => ⟨a, b, c, d, e⟩
    left_inv := fun _ => rfl
    right_inv := fun _ => rfl }

/-- `Chk::Sprite`, 10 bytes. -/
structure Sprite where
  type : UInt16
  xc : UInt16
  yc : UInt16
  owner : UInt8
  unused : UInt8
  flags : UInt16
deriving DecidableEq

def spriteCodec : Codec Sprite :=
  (Codec.u16.pair <| Codec.u16.pair <| Codec.u16.pair <| Codec.u8.pair <|
    Codec.u8.pair Codec.u16).ofEquiv
  { toFun := fun s => (s.type, s.xc, s.yc, s.owner, s.unused, s.flags)
    invFun := fun ⟨a, b, c, d, e, f⟩ => ⟨a, b, c, d, e, f⟩
    left_inv := fun _ => rfl
    right_inv := fun _ => rfl }

/-- `Chk::Location`, 20 bytes. -/
structure Location where
  left : UInt32
  top : UInt32
  right : UInt32
  bottom : UInt32
  stringId : UInt16
  elevationFlags : UInt16
deriving DecidableEq

def locationCodec : Codec Location :=
  (Codec.u32.pair <| Codec.u32.pair <| Codec.u32.pair <| Codec.u32.pair <|
    Codec.u16.pair Codec.u16).ofEquiv
  { toFun := fun l =>
      (l.left, l.top, l.right, l.bottom, l.stringId, l.elevationFlags)
    invFun := fun ⟨a, b, c, d, e, f⟩ => ⟨a, b, c, d, e, f⟩
    left_inv := fun _ => rfl
    right_inv := fun _ => rfl }

/-- `Chk::Condition`, 20 bytes. -/
structure Condition where
  locationId : UInt32
  player : UInt32
  amount : UInt32
  unitType : UInt16
  comparison : UInt8
  conditionType : UInt8
  typeIndex : UInt8
  flags : UInt8
  maskFlag : UInt16
deriving DecidableEq, Inhabited

def conditionCodec : Codec Condition :=
  (Codec.u32.pair <| Codec.u32.pair <| Codec.u32.pair <| Codec.u16.pair <|
    Codec.u8.pair <| Codec.u8.pair <| Codec.u8.pair <|
    Codec.u8.pair Codec.u16).ofEquiv
  { toFun := fun c =>
      (c.locationId, c.player, c.amount, c.unitType, c.comparison,
        c.conditionType, c.typeIndex, c.flags, c.maskFlag)
    invFun := fun ⟨a, b, c, d, e, f, g, h, i⟩ => ⟨a, b, c, d, e, f, g, h, i⟩
    left_inv := fun _ => rfl
    right_inv := fun _ => rfl }

/-- `Chk::Action`, 32 bytes. -/
structure Action where
  locationId : UInt32
  stringId : UInt32
  soundStringId : UInt32
  time : UInt32
  group : UInt32
  number : UInt32
  type : UInt16
  actionType : UInt8
  type2 : UInt8
  flags : UInt8
  padding : UInt8
  maskFlag : UInt16
deriving DecidableEq, Inhabited

def actionCodec : Codec Action :=
  (Codec.u32.pair <| Codec.u32.pair <| Codec.u32.pair <| Codec.u32.pair <|
    Codec.u32.pair <| Codec.u32.pair <| Codec.u16.pair <| Codec.u8.pair <|
    Codec.u8.pair <| Codec.u8.pair <| Codec.u8.pair Codec.u16).ofEquiv
  { toFun := fun x =>
      (x.locationId, x.stringId, x.soundStringId, x.time, x.group, x.number,
        x.type, x.actionType, x.type2, x.flags, x.padding, x.maskFlag)
    invFun := fun ⟨a, b, c, d, e, f, g, h, i, j, k, l⟩ =>
      ⟨a, b, c, d, e, f, g, h, i, j, k, l⟩
    left_inv := fun _ => rfl
    right_inv := fun _ => rfl }

/-- `Chk::Trigger::MaxConditions`. -/
def maxConditions : ℕ := 16

/-- `Chk::Trigger::MaxActions`. -/
def maxActions : ℕ := 64

/-- `Chk::Trigger::MaxOwners`. -/
def maxOwners : ℕ := 27

/-- `Chk::Trigger`, 2400 bytes. -/
structure Trigger where
  conditions : List.Vector Condition maxConditions
  actions : List.Vector Action maxActions
  flags : UInt32
  owners : List.Vector UInt8 maxOwners
  currentAction : UInt8
deriving DecidableEq

/-- A trigger fresh from its constructor. -/
def blankTrigger : Trigger where
  conditions := List.Vector.replicate maxConditions default
  actions := List.Vector.replicate maxActions default
  flags := 0
  owners := List.Vector.replicate maxOwners 0
  currentAction := 0

def triggerCodec : Codec Trigger := ((conditionCodec.vector maxConditions).pair <|
    (actionCodec.vector maxActions).pair <| Codec.u32.pair <|
    (Codec.u8.vector maxOwners).pair Codec.u8).ofEquiv
  { toFun := fun t =>
      (t.conditions, t.actions, t.flags, t.owners, t.currentAction)
    invFun := fun ⟨a, b, c, d, e⟩ => ⟨a, b, c, d, e⟩
    left_inv := fun _ => rfl
    right_inv := fun _ => rfl }

/-- `Chk::ExtendedTrigData`, 20 bytes. -/
structure ExtendedTrigData where
  commentStringId : UInt32
  notesStringId : UInt32
  groupId : UInt32
  trigNum : UInt32
  maskId : UInt32
deriving DecidableEq

/-- The default constructor: no strings, and `u32_max` for no group, trigger
or mask. -/
def ExtendedTrigData.blank : ExtendedTrigData := ⟨0, 0, 0xFFFFFFFF, 0xFFFFFFFF, 0xFFFFFFFF⟩

def extendedTrigDataCodec : Codec ExtendedTrigData :=
  (Codec.u32.pair <| Codec.u32.pair <| Codec.u32.pair <| Codec.u32.pair Codec.u32).ofEquiv
  { toFun := fun x =>
      (x.commentStringId, x.notesStringId, x.groupId, x.trigNum, x.maskId)
    invFun := fun ⟨a, b, c, d, e⟩ => ⟨a, b, c, d, e⟩
    left_inv := fun _ => rfl
    right_inv := fun _ => rfl }

/-- `Chk::TriggerGroupHeader`, 32 bytes. -/
structure TriggerGroupHeader where
  flags : UInt32
  templateInstanceId : UInt32
  numTriggers : UInt32
  numGroups : UInt32
  commentStringId : UInt32
  notesStringId : UInt32
  parentGroupId : UInt32
  bodyOffset : UInt32
deriving DecidableEq

def triggerGroupHeaderCodec : Codec TriggerGroupHeader :=
  (Codec.u32.pair <| Codec.u32.pair <| Codec.u32.pair <| Codec.u32.pair <|
    Codec.u32.pair <| Codec.u32.pair <| Codec.u32.pair Codec.u32).ofEquiv
  { toFun := fun x =>
      (x.flags, x.templateInstanceId, x.numTriggers, x.numGroups,
        x.commentStringId, x.notesStringId, x.parentGroupId, x.bodyOffset)
    invFun := fun ⟨a, b, c, d, e, f, g, h⟩ => ⟨a, b, c, d, e, f, g, h⟩
    left_inv := fun _ => rfl
    right_inv := fun _ => rfl }

/-- `Chk::TriggerGroup`: a group of the KTGP section as kept in memory. -/
structure TriggerGroup where
  groupExpanded : Bool
  groupHidden : Bool
  templateInstanceId : UInt32
  commentStringId : UInt32
  notesStringId : UInt32
  parentGroupId : UInt32
  extendedTrigDataIndexes : List UInt32
  groupIndexes : List UInt32
deriving DecidableEq

@[simp]
theorem size_locationCodec : locationCodec.size = 20 := rfl

@[simp]
theorem size_extendedTrigDataCodec : extendedTrigDataCodec.size = 20 := rfl

@[simp]
theorem size_triggerGroupHeaderCodec : triggerGroupHeaderCodec.size = 32 := rfl

end Chkdraft.Chk
