import ConfidentialBalances.ProofGeneration

/-!
# Depositing

`deposit_to_confidential`: one transaction with one instruction, from the public
to the pending balance.
-/

namespace ConfidentialBalances

open Effect

/-- The one transaction's instructions. -/
def depositInstructions (authority : Wallet) (mint : Pubkey) (amount decimals : Nat) :
    List Instruction :=
  let tokenAccount := getAssociatedTokenAddress authority.pubkey mint
  [.deposit tokenAccount mint amount decimals authority.pubkey [authority.pubkey]]

/-- `deposit_to_confidential`. -/
def depositToConfidential (payer authority : Wallet) (mint : Pubkey) (amount decimals : Nat) :
    Client Signature :=
  sendTx (depositInstructions authority mint amount decimals) [payer.pubkey, authority.pubkey]
    payer.pubkey

/-- The transaction that depositing submits. -/
def depositTransaction (payer authority : Wallet) (mint : Pubkey) (amount decimals : Nat) :
    Transaction :=
  ⟨depositInstructions authority mint amount decimals, payer.pubkey,
    [payer.pubkey, authority.pubkey]⟩

/-- Depositing lands its one transaction or nothing. -/
theorem depositToConfidential_submits (cluster : Cluster) (payer authority : Wallet)
    (mint : Pubkey) (amount decimals : Nat) (world : World) :
    Submits cluster (· = [depositTransaction payer authority mint amount decimals])
      (fun _ sig world' => sig = ⟨world.landed.length⟩ ∧ world'.generated = world.generated)
      (depositToConfidential payer authority mint amount decimals) world :=
  follows_sendTx _ _ _

end ConfidentialBalances
