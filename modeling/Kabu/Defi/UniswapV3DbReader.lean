import Kabu.Defi.SqrtPriceMath

/-!
# The storage of a UniswapV3 pool

The state of a pool is read from the cells of its contract.  The first cell has the price and the
tick, the fifth the active liquidity.  The change of the liquidity at a tick and the words of the
bitmap are in mappings, whose cells are found by hashing.
-/

namespace Kabu

abbrev U160 := BitVec 160
abbrev I128 := BitVec 128

/-- The bytes of a word, the highest first. -/
def U256.toBeBytes (x : U256) : Bytes :=
  (List.range 32).map fun i => UInt8.ofNat (x.toNat / 256 ^ (31 - i))

def tryReadCell (db : DatabaseRef) (account : Address) (cell : U256) : Except Report U256 :=
  (db.storageRef account cell).mapError fun _ => "READ_CELL_FAILED"

def tryReadHashmapCell [Keccak] (db : DatabaseRef) (account : Address) (hashmapOffset item : U256) :
    Except Report U256 :=
  let cell := keccak256 (item.toBeBytes ++ hashmapOffset.toBeBytes)
  (db.storageRef account cell).mapError fun _ => "READ_HASHMAP_CELL_ERROR"

/-- A database in which every contract has the same cells. -/
def cellsDb (cell : U256 → Except KabuDBError U256) : DatabaseRef where
  basicRef _ := .ok none
  codeByHashRef _ := .error .noDB
  storageRef _ := cell
  blockHashRef _ := .error .noDB

/-- The part of the first cell that is used. -/
structure Slot0Return where
  sqrtPriceX96 : U160
  tick : ℤ
  deriving DecidableEq, Repr

namespace UniswapV3DbReader

def bits160Mask : U256 := (1 : U256) <<< 160 - 1
def bits24Mask : U256 := (1 : U256) <<< 24 - 1

def slot0 (db : DatabaseRef) (address : Address) : Except Report Slot0Return := do
  let cell ← tryReadCell db address 0
  .ok ⟨(cell &&& bits160Mask).setWidth 160, ((cell >>> 160 &&& bits24Mask).setWidth 24).toInt⟩

/-- The source saturates. -/
def liquidity (db : DatabaseRef) (address : Address) : Except Report U128 := do
  let cell ← tryReadCell db address 4
  .ok (if cell.toNat < 2 ^ 128 then cell.setWidth 128 else BitVec.allOnes 128)

variable [Keccak]

def ticksLiquidityNet (db : DatabaseRef) (address : Address) (tick : ℤ) : Except Report I128 := do
  let cell ← tryReadHashmapCell db address 5 (BitVec.ofInt 256 tick)
  .ok ((cell >>> 128).setWidth 128)

def tickBitmap (db : DatabaseRef) (address : Address) (tick : ℤ) : Except Report U256 :=
  tryReadHashmapCell db address 6 (BitVec.ofInt 256 tick)

end UniswapV3DbReader

end Kabu
