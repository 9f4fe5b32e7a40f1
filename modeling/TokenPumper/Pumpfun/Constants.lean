import TokenPumper.Lib.LittleEndian

namespace TokenPumper
open LittleEndian
set_option autoImplicit true

def systemProgramId : Bytes 32 := Vector.replicate 32 0

/-- `6EF8rrecthR5Dkzon8Nwu78hRvfCKubJ14M5uBEwF6P` -/
def pumpProgramId : Bytes 32 := #v[
  1, 86, 224, 246, 147, 102, 90, 207, 68, 219, 21, 104, 191, 23, 91, 170, 81, 137, 203, 151, 245,
  210, 255, 59, 101, 93, 43, 182, 253, 109, 24, 176]

/-- `MAyhSmzXzV1pTf7LsNkrNwkWKTo4ougAJ1PPg47MD4e` -/
def mayhemProgramId : Bytes 32 := #v[
  5, 42, 229, 215, 167, 218, 167, 36, 166, 234, 176, 167, 41, 84, 145, 133, 90, 212, 160, 103,
  22, 96, 103, 76, 78, 3, 69, 89, 128, 61, 101, 163]

/-- `pfeeUxB6jkeY1Hxd7CsFCAjcbHA9rWtchMGdZ6VojVZ` -/
def pumpFeeProgramId : Bytes 32 := #v[
  12, 53, 255, 169, 5, 90, 142, 86, 141, 168, 247, 188, 7, 86, 21, 39, 76, 241, 201, 44, 164, 31,
  64, 0, 156, 81, 106, 164, 20, 194, 124, 112]

/-- `TokenzQdBNbLqP5VEhdkAS6EPFLC1PHnBqCXEpPxuEb` -/
def token2022ProgramId : Bytes 32 := #v[
  6, 221, 246, 225, 238, 117, 143, 222, 24, 66, 93, 188, 228, 108, 205, 218, 182, 26, 252, 77,
  131, 185, 13, 39, 254, 189, 249, 40, 216, 161, 139, 252]

/-- `ATokenGPvbdGVxr1b2hvZbsiqW5xWH25efTNsLJA8knL` -/
def ataProgramId : Bytes 32 := #v[
  140, 151, 37, 143, 78, 36, 137, 241, 187, 61, 16, 41, 20, 142, 13, 131, 11, 90, 19, 153, 218,
  255, 16, 132, 4, 142, 123, 216, 219, 233, 248, 89]

def mintAuthorityPda : Bytes 32 := #v[
  6, 197, 193, 206, 99, 141, 37, 103, 210, 100, 104, 176, 94, 185, 81, 209, 162, 141, 204, 110,
  18, 52, 130, 181, 198, 117, 20, 151, 112, 230, 43, 242]

def globalPda : Bytes 32 := #v[
  58, 134, 94, 105, 238, 15, 84, 128, 202, 188, 246, 99, 87, 228, 220, 47, 24, 213, 141, 69, 193,
  234, 116, 137, 251, 55, 35, 217, 121, 60, 114, 166]

def eventAuthorityPda : Bytes 32 := #v[
  172, 241, 54, 235, 1, 252, 28, 78, 136, 61, 35, 200, 181, 132, 74, 181, 154, 55, 246, 106, 221,
  87, 197, 233, 172, 59, 83, 224, 89, 211, 92, 100]

def globalParamsPda : Bytes 32 := #v[
  0, 173, 174, 162, 125, 179, 198, 243, 208, 78, 92, 240, 162, 2, 159, 3, 227, 57, 143, 8, 83,
  149, 239, 239, 239, 23, 31, 198, 74, 248, 23, 65]

def solVaultPda : Bytes 32 := #v[
  162, 139, 95, 210, 106, 180, 121, 166, 169, 204, 108, 191, 107, 11, 35, 235, 97, 136, 90, 55,
  30, 1, 32, 172, 169, 19, 190, 239, 61, 19, 138, 120]

def globalVolumeAccumulatorPda : Bytes 32 := #v[
  250, 9, 17, 165, 72, 99, 65, 45, 99, 31, 78, 7, 135, 3, 41, 108, 3, 95, 13, 19, 51, 160, 217,
  200, 131, 141, 115, 183, 16, 254, 110, 45]

def feeConfigPda : Bytes 32 := #v[
  111, 154, 180, 164, 241, 149, 141, 192, 169, 201, 76, 63, 183, 44, 7, 153, 88, 67, 237, 164,
  133, 227, 162, 79, 16, 198, 147, 153, 248, 25, 148, 15]

/-- `ComputeBudget111111111111111111111111111111` -/
def computeBudgetProgramId : Bytes 32 := #v[
  3, 6, 70, 111, 229, 33, 23, 50, 255, 236, 173, 186, 114, 195, 155, 231, 188, 140, 229, 187,
  197, 247, 18, 107, 44, 67, 155, 58, 64, 0, 0, 0]

def cbSetComputeUnitLimit : UInt8 := 0x02

def cbSetComputeUnitPrice : UInt8 := 0x03

/-- Wire size of a `SetComputeUnitLimit` data section: one tag byte and a `u32`. -/
def cuLimitDataLen : UInt8 := 5

/-- Wire size of a `SetComputeUnitPrice` data section: one tag byte and a `u64`. -/
def cuPriceDataLen : UInt8 := 9

/-- `node1YtWCoTwwVYTFLfS19zquRQzYX332hs1HEuRBjC` -/
def tipRecipient : Bytes 32 := #v[
  11, 187, 220, 239, 133, 123, 195, 55, 149, 111, 123, 224, 192, 86, 213, 149, 14, 232, 182, 21,
  240, 243, 55, 45, 209, 33, 43, 114, 69, 121, 219, 23]

namespace Discriminators

def createV2 : Bytes 8 := #v[214, 144, 76, 236, 95, 139, 49, 180]

def buy : Bytes 8 := #v[102, 6, 61, 18, 1, 218, 235, 234]

def sell : Bytes 8 := #v[51, 230, 133, 164, 1, 127, 131, 173]

def buyExactSolIn : Bytes 8 := #v[56, 252, 116, 8, 158, 223, 205, 95]

end Discriminators

def buybackFeeRecipients : Vector (Bytes 32) 8 := #v[
  #v[67, 158, 101, 16, 192, 61, 101, 250, 217, 49, 232, 157, 4, 190, 11, 183, 13, 81, 151, 31, 81,
    196, 21, 251, 52, 76, 7, 219, 65, 159, 33, 34],
  #v[2, 35, 85, 22, 169, 23, 19, 76, 103, 88, 140, 73, 56, 32, 174, 21, 94, 233, 102, 101, 87,
    122, 193, 183, 24, 218, 71, 221, 207, 42, 5, 14],
  #v[230, 167, 226, 32, 104, 187, 136, 100, 10, 165, 127, 144, 147, 8, 198, 31, 239, 113, 26, 1,
    99, 245, 167, 85, 192, 112, 188, 134, 13, 31, 99, 103],
  #v[32, 124, 236, 218, 91, 204, 108, 177, 234, 240, 241, 109, 104, 64, 69, 102, 177, 141, 86,
    210, 72, 26, 203, 49, 112, 50, 101, 110, 144, 85, 28, 120],
  #v[68, 150, 65, 248, 73, 88, 220, 115, 167, 106, 133, 216, 117, 111, 85, 192, 44, 218, 202, 137,
    186, 25, 50, 121, 12, 54, 138, 177, 87, 233, 45, 115],
  #v[197, 75, 150, 181, 201, 49, 148, 30, 70, 234, 75, 226, 224, 227, 17, 39, 116, 79, 198, 183,
    76, 251, 69, 94, 254, 175, 139, 213, 113, 121, 44, 237],
  #v[68, 252, 31, 120, 249, 74, 51, 208, 144, 156, 94, 107, 95, 176, 33, 87, 10, 216, 219, 173,
    141, 232, 253, 179, 210, 14, 209, 205, 153, 235, 142, 78],
  #v[135, 112, 21, 126, 235, 235, 103, 138, 101, 93, 185, 155, 55, 246, 177, 50, 108, 118, 87,
    219, 144, 207, 184, 168, 122, 190, 248, 199, 182, 242, 200, 105]]

/-- The recipient is a function of the slot, so a rebuild for the same slot is the same. -/
def pickForSlot (slot : UInt64) : Bytes 32 := buybackFeeRecipients[slot.toNat % 8]

def maxTxSize : Nat := 1232

end TokenPumper
