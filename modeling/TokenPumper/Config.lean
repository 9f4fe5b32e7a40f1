import TokenPumper.Lib.FileTree

namespace TokenPumper
open FileTree
set_option autoImplicit true

structure AccountFunding where
  index : Nat
  amount : UInt64
  cuPriceLamports : UInt64
deriving DecidableEq, Repr

/-- `config.toml`, with the defaults of what it may leave out. -/
structure Config where
  eaterAmount : UInt64
  debug : Bool := false
  batchSize : Nat := 15
  eaterPath : Path := ["eater.json", "keys"]
  funderPath : Path := ["key.json", "funder", "keys"]
  devPath : Path := ["key.json", "dev", "keys"]
  keysDir : Path := ["keys"]
  focusCountry : String := "DE"
  fireAtShredCount : UInt32 := 130
  tokenDebug : Bool := false
  buySolLamports : UInt64 := 100000000
  cuLimit : UInt32 := 210000
  creatorCuBuyPriceLamports : UInt64 := 100000
  creatorCuSellPriceLamports : UInt64 := 100000
  cuBuyLimit : UInt32 := 95000
  cuSellLimit : UInt32 := 95000
  addressLookupTable : String := "J7tuiJanfndJWHzdLEgxFVwFkdyaryi96tjxwhPgckse"
  node1Endpoint : String := "fra.node1.me:16666"
  node1ServerName : String := "fra.node1.me"
  node1ApiKey : Option String := none
  node1TipLamports : UInt64 := 1000000
  sellMinSolOutputLamports : UInt64 := 0
  curveSubEndpoint : Option String := none
  curveSubXToken : Option String := none
  accounts : List AccountFunding := []

end TokenPumper
