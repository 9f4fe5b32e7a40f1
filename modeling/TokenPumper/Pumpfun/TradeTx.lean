import TokenPumper.Pumpfun.BuyExactSolIx
import TokenPumper.Pumpfun.SellIx

namespace TokenPumper
open LittleEndian ByteCursor SolanaWire Idl BuyExactSolIx SellIx
set_option autoImplicit true

variable [Ed25519]

/-- The bytes are a legacy transaction, signed by one key, of just these instructions. -/
structure OneSignerTx (signer : SigningKey) (user : Pubkey) (blockhash : Bytes 32)
    (meanings : List Meaning) (bs : List UInt8) (tx : Transaction) : Prop where
  decodes : decodeTransaction bs = some tx
  legacy : ∃ body, tx.message = .legacy body
  signatures : tx.signatures = [Ed25519.sign signer tx.signedBytes]
  signers : tx.message.body.header.numRequiredSignatures = 1 ∧
    tx.message.body.accountKeys.head? = some user
  blockhash : tx.message.body.recentBlockhash = blockhash
  meanings : ∀ tables, (tx.message.resolve tables).bind interpretAll = some meanings
  fits : bs.length ≤ maxTxSize

theorem buildSigned_oneSigner (signer : SigningKey) (body : MessageBody)
    (hw : writer = put (Message.legacy body).encode) (hf : (Message.legacy body).Fits)
    (hl : 65 + (Message.legacy body).encode.length ≤ maxTxSize)
    (hs : body.header.numRequiredSignatures = 1) (hu : body.accountKeys.head? = some user)
    (hm : ∀ tables, ((Message.legacy body).resolve tables).bind interpretAll = some meanings) :
    ∃ bs tx, (∀ out, ∃ out', buildSigned 65 writer [signer] out = some out' ∧ out'.asBytes = bs) ∧
      OneSignerTx signer user body.recentBlockhash meanings bs tx := by
  let m := Message.legacy body
  have hn : [signer].length < 128 := by
    change 1 < 128
    omega
  refine ⟨signedBytes [signer] m.encode, ⟨[signer].map (Ed25519.sign · m.encode), m.encode, m⟩,
    fun out => buildSigned_eq [signer] m.encode out rfl hw hl, ?_⟩
  constructor
  case decodes => exact decodeTransaction_signedBytes [signer] m hn hf
  case legacy => exact ⟨body, rfl⟩
  case signatures => rfl
  case signers => exact ⟨hs, hu⟩
  case blockhash => rfl
  case meanings => exact hm
  case fits =>
    rw [length_signedBytes]
    exact hl

theorem buildSignedBuyTx_means (inp : BuyExactSolInputs) (signer : SigningKey) : ∃ bs tx,
    (∀ out, ∃ out', buildSignedBuyTx inp signer out = some out' ∧ out'.asBytes = bs) ∧
      OneSignerTx signer inp.user inp.recentBlockhash inp.meanings bs tx := by
  have hl : 65 + inp.message.encode.length ≤ maxTxSize := by
    rw [BuyExactSolIx.length_message, maxTxSize]
    omega
  exact buildSigned_oneSigner signer inp.message.body (writeBuyMessage_eq inp)
    (BuyExactSolIx.fits_message inp) hl rfl rfl (BuyExactSolIx.interpretAll_message inp)

theorem buildSignedSellTx_means (inp : SellInputs) (signer : SigningKey) : ∃ bs tx,
    (∀ out, ∃ out', buildSignedSellTx inp signer out = some out' ∧ out'.asBytes = bs) ∧
      OneSignerTx signer inp.user inp.recentBlockhash inp.meanings bs tx := by
  have hl : 65 + inp.message.encode.length ≤ maxTxSize := by
    rw [SellIx.length_message, maxTxSize]
    omega
  exact buildSigned_oneSigner signer inp.message.body (writeSellMessage_eq inp)
    (SellIx.fits_message inp) hl rfl rfl (SellIx.interpretAll_message inp)

/-- Every buy and every sell is built, and says what its inputs say. -/
theorem builtTrades_mean :
    (∀ (inp : BuyExactSolInputs) (signer : SigningKey), ∃ bs tx,
      (∀ out, ∃ out', buildSignedBuyTx inp signer out = some out' ∧ out'.asBytes = bs) ∧
        OneSignerTx signer inp.user inp.recentBlockhash inp.meanings bs tx) ∧
    ∀ (inp : SellInputs) (signer : SigningKey), ∃ bs tx,
      (∀ out, ∃ out', buildSignedSellTx inp signer out = some out' ∧ out'.asBytes = bs) ∧
        OneSignerTx signer inp.user inp.recentBlockhash inp.meanings bs tx :=
  ⟨buildSignedBuyTx_means, buildSignedSellTx_means⟩

end TokenPumper
