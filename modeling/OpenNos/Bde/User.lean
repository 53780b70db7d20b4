import OpenNos.Bde.Kernel

/-! The character device `nos_user_bde.c` and the userspace layer `bde_ioctl.c`
above it. Each ioctl is the program of register accesses the kernel makes for
it; the environment says whether the descriptor is open and whether the copies
between user and kernel memory succeed. -/

namespace OpenNos.Bde

open Bits RegProg

/-- `struct nos_bde_schan`; `data[]` follows `cmd[]` in memory. -/
structure NosBdeSchan where
  cmd : Words
  data : Words
  len : ℤ
  status : ℤ

/-- The words a pointer to `cmd[0]` reaches. -/
def NosBdeSchan.cmdPtr (schan : NosBdeSchan) : Words :=
  fun i => if i < 16 then schan.cmd i else schan.data (i - 16)

structure BdeEnv extends SchanEnv where
  fdOpen : Bool
  copyFromUser : Bool
  copyToUser : Bool

/-- Nothing stops an S-Channel request before it reaches the device. -/
structure BdeEnv.Ready (env : BdeEnv) : Prop where
  fdOpen : env.fdOpen = true
  probed : env.probed = true
  copyFromUser : env.copyFromUser = true
  interrupted : env.interrupted = false

/-- The first register offset past BAR0. -/
def BAR0_LIMIT : ℕ := 0x40000

/-! ### `nos_bde_ioctl` -/

def ioctlReadReg (env : BdeEnv) (offset : BitVec 32) : Pio (Rc (BitVec 32)) :=
  if !env.probed then return .error .enodev
  else if !env.copyFromUser then return .error .efault
  else if offset.toNat ≥ BAR0_LIMIT then return .error .einval
  else do
    let v ← ioread32 offset.toNat
    if !env.copyToUser then return .error .efault
    return .ok v

def ioctlWriteReg (env : BdeEnv) (offset value : BitVec 32) : Pio (Rc Unit) :=
  if !env.probed then return .error .enodev
  else if !env.copyFromUser then return .error .efault
  else if offset.toNat ≥ BAR0_LIMIT then return .error .einval
  else do
    iowrite32 value offset.toNat
    return .ok ()

def ioctlSchanOp (env : BdeEnv) (schan : NosBdeSchan) : Pio (Rc NosBdeSchan) :=
  if !env.probed then return .error .enodev
  else if !env.copyFromUser then return .error .efault
  else do
    match ← nosBdeSchanOp env.toSchanEnv schan.cmdPtr schan.len (some schan.data) 16 with
    | .error _ => return .error .eio
    | .ok (status, data) =>
      if !env.copyToUser then return .error .efault
      return .ok { schan with status := status, data := data.getD schan.data }

/-! ### `bde_ioctl.c` -/

def bdeReadReg (env : BdeEnv) (offset : BitVec 32) : Pio (Option (BitVec 32)) :=
  if !env.fdOpen then return none
  else do
    match ← ioctlReadReg env offset with
    | .error _ => return none
    | .ok v => return some v

def bdeWriteReg (env : BdeEnv) (offset value : BitVec 32) : Pio Bool :=
  if !env.fdOpen then return false
  else do
    match ← ioctlWriteReg env offset value with
    | .error _ => return false
    | .ok _ => return true

/-- The structure `bde_schan_op` hands to the kernel; what it does not copy is
zero. -/
def schanRequest (cmd : Words) (cmdWords : ℤ) (data : Option Words) (dataLen : ℕ) :
    NosBdeSchan where
  cmd := splice cmdWords.toNat cmd (fun _ => 0)
  data := match data with
    | some d => splice (min dataLen 16) d (fun _ => 0)
    | none => fun _ => 0
  len := cmdWords
  status := -1

/-- Returns `*status` and the caller's buffer, or `none` for -1. -/
def bdeSchanOp (env : BdeEnv) (cmd : Words) (cmdWords : ℤ) (data : Option Words)
    (dataLen : ℕ) : Pio (Option (ℤ × Option Words)) :=
  if !env.fdOpen ∨ cmdWords ≤ 0 ∨ cmdWords > 16 then return none
  else do
    match ← ioctlSchanOp env (schanRequest cmd cmdWords data dataLen) with
    | .error _ => return none
    | .ok s => return some (s.status, data.map fun d => splice (min dataLen 16) s.data d)

end OpenNos.Bde
