import MineRider.Model.Minecraft.Inventory
import MineRider.Model.Protocol.NbtEq

/-! # Bot commands and their validation

What a controller can ask of a running session, and the checks a command passes before it enters a
queue. Floats are their bit patterns and durations are in nanoseconds. Text is measured as Java
measures it, in UTF-16 code units.
-/

namespace MineRider.Model.Minecraft

section Floats

open Protocol.Nbt

def isFiniteF32 (bits : UInt32) : Bool := magnitudeF32 bits < 0x7F800000

/-- The place of a float on the number line, which is the same for both zeros. -/
def rankF32 (bits : UInt32) : ℤ :=
  if bits < 0x80000000 then (magnitudeF32 bits).toNat else -(magnitudeF32 bits).toNat

/-- `a < b`, which a NaN never satisfies. -/
def ltF32 (a b : UInt32) : Bool := !isNanF32 a && !isNanF32 b && rankF32 a < rankF32 b

def leF32 (a b : UInt32) : Bool := !isNanF32 a && !isNanF32 b && rankF32 a ≤ rankF32 b

def zeroF32 : UInt32 := 0
def oneF32 : UInt32 := 0x3F800000

end Floats

section Commands

inductive Hand where
  | main
  | off
deriving DecidableEq, Repr

inductive DigAction where
  | start
  | cancel
  | finish
deriving DecidableEq, Repr

structure BlockPlacement where
  x : Int32
  y : Int32
  z : Int32
  face : Int32
  hand : Hand
  cursorX : UInt32
  cursorY : UInt32
  cursorZ : UInt32
  insideBlock : Bool
deriving DecidableEq, Repr

structure RandomLookConfig where
  minInterval : ℕ
  maxInterval : ℕ
  maxYawDelta : UInt32
  minPitch : UInt32
  maxPitch : UInt32
  seed : Option UInt64
deriving DecidableEq, Repr

structure MovementInput where
  forward : UInt32
  strafe : UInt32
  jump : Bool
  sprint : Bool
  sneak : Bool
deriving DecidableEq, Repr

inductive ActionValidationError where
  | emptyChat
  | emptyCommand
  | chatStartsWithSlash
  | commandStartsWithSlash
  | chatTooLong (actual max : ℕ)
  | commandTooLong (actual max : ℕ)
  | randomLookNonFinite
  | randomLookIntervalOrder
  | randomLookPitchOrder
  | randomLookNegativeYawDelta
  | hotbarSlotOutOfRange (slot : Int16)
  | blockFaceOutOfRange (face : Int32)
  | blockCursorOutOfRange (value : UInt32)
deriving DecidableEq, Repr

inductive BotCommand where
  | setInput (input : MovementInput)
  | look (yaw pitch : UInt32)
  | walkTo (x z : UInt64)
  | sprint (on : Bool)
  | sneak (on : Bool)
  | jump (on : Bool)
  | forward (on : Bool)
  | backward (on : Bool)
  | strafeLeft (on : Bool)
  | strafeRight (on : Bool)
  | setRandomLook (config : Option RandomLookConfig)
  | chat (message : String)
  | command (text : String)
  | inventoryClick (request : InventoryClickRequest)
  | useItem (hand : Hand)
  | swing (hand : Hand)
  | selectHotbarSlot (slot : Int16)
  | useItemOnBlock (placement : BlockPlacement)
  | interactEntity (entityId : Int32) (hand : Hand) (sneaking : Bool)
  | attackEntity (entityId : Int32) (sneaking : Bool)
  | interactAtEntity (entityId : Int32) (hand : Hand) (sneaking : Bool) (x y z : UInt32)
  | releaseItem
  | digBlock (x y z face : Int32) (action : DigAction)
  | dropItem (wholeStack : Bool)
  | swapHands
  | closeGui
  | stop
deriving DecidableEq, Repr

end Commands

section Validation

def maxChatUtf16Units : ℕ := 256

/-- `encode_utf16().count()` -/
def utf16Units (text : String) : ℕ := (text.toList.map fun c => if c.val < 0x10000 then 1 else 2).sum

/-- The checks that chat messages and commands share, each with errors of its own. -/
def validateText (empty slash : ActionValidationError) (tooLong : ℕ → ℕ → ActionValidationError) (text : String) :
    Except ActionValidationError Unit := do
  if text.isEmpty then throw empty
  if text.toList.head? = some '/' then throw slash
  if utf16Units text > maxChatUtf16Units then throw (tooLong (utf16Units text) maxChatUtf16Units)

def validateChat : String → Except ActionValidationError Unit :=
  validateText .emptyChat .chatStartsWithSlash .chatTooLong

def validateCommand : String → Except ActionValidationError Unit :=
  validateText .emptyCommand .commandStartsWithSlash .commandTooLong

def RandomLookConfig.validate (config : RandomLookConfig) : Except ActionValidationError Unit := do
  if !isFiniteF32 config.maxYawDelta || !isFiniteF32 config.minPitch || !isFiniteF32 config.maxPitch then
    throw .randomLookNonFinite
  if config.minInterval > config.maxInterval then throw .randomLookIntervalOrder
  if ltF32 config.maxPitch config.minPitch then throw .randomLookPitchOrder
  if ltF32 config.maxYawDelta zeroF32 then throw .randomLookNegativeYawDelta

/-- Whether a coordinate on a block's face is a fraction of it. -/
def isFraction (value : UInt32) : Bool := isFiniteF32 value && leF32 zeroF32 value && leF32 value oneF32

def validFace (face : Int32) : Bool := 0 ≤ face && face ≤ 5

def validatePlacement (placement : BlockPlacement) : Except ActionValidationError Unit := do
  if !validFace placement.face then throw (.blockFaceOutOfRange placement.face)
  match [placement.cursorX, placement.cursorY, placement.cursorZ].find? (!isFraction ·) with
  | some value => throw (.blockCursorOutOfRange value)
  | none => pure ()

def BotCommand.validate : BotCommand → Except ActionValidationError Unit
  | .chat message => validateChat message
  | .command text => validateCommand text
  | .setRandomLook (some config) => config.validate
  | .selectHotbarSlot slot => if 0 ≤ slot ∧ slot ≤ 8 then pure () else throw (.hotbarSlotOutOfRange slot)
  | .useItemOnBlock placement => validatePlacement placement
  | .digBlock _ _ _ face _ => if validFace face then pure () else throw (.blockFaceOutOfRange face)
  | _ => pure ()

end Validation

end MineRider.Model.Minecraft
