import TokenLedger.Message.Asset
import TokenLedger.Message.Denom
import TokenLedger.Message.Query

/-!
# All message types

The closed list of the types that travel on the wire, each with its values and its codec.
-/

namespace TokenLedger

open Wire

/-- The message types. -/
inductive MessageType
  | createDenom | createDenomResponse | mintDenom | burnDenom
  | issueToken | mintToken | burnToken
  | issueClass | mintNft | burnNft | sendNft
  | allBalances | balance | supplyOf | smartContractState | contractInfo
  | token | tokens | nftClass | nftClasses | nft | nfts | owner
deriving DecidableEq, Repr

namespace MessageType

/-- The messages of a type. -/
abbrev Message : MessageType → Type
  | createDenom => CreateDenom
  | createDenomResponse => CreateDenomResponse
  | mintDenom => MintDenom
  | burnDenom => BurnDenom
  | issueToken => IssueToken
  | mintToken => MintToken
  | burnToken => BurnToken
  | issueClass => IssueClass
  | mintNft => MintNft
  | burnNft => BurnNft
  | sendNft => SendNft
  | allBalances => AllBalancesRequest
  | balance => BalanceRequest
  | supplyOf => SupplyOfRequest
  | smartContractState => SmartContractStateRequest
  | contractInfo => ContractInfoRequest
  | token => TokenRequest
  | tokens => TokensRequest
  | nftClass => ClassRequest
  | nftClasses => ClassesRequest
  | nft => NftRequest
  | nfts => NftsRequest
  | owner => OwnerRequest

/-- The codec of a type. -/
def codec : (t : MessageType) → Codec t.Message
  | createDenom => CreateDenom.codec
  | createDenomResponse => CreateDenomResponse.codec
  | mintDenom => MintDenom.codec
  | burnDenom => BurnDenom.codec
  | issueToken => IssueToken.codec
  | mintToken => MintToken.codec
  | burnToken => BurnToken.codec
  | issueClass => IssueClass.codec
  | mintNft => MintNft.codec
  | burnNft => BurnNft.codec
  | sendNft => SendNft.codec
  | allBalances => AllBalancesRequest.codec
  | balance => BalanceRequest.codec
  | supplyOf => SupplyOfRequest.codec
  | smartContractState => SmartContractStateRequest.codec
  | contractInfo => ContractInfoRequest.codec
  | token => TokenRequest.codec
  | tokens => TokensRequest.codec
  | nftClass => ClassRequest.codec
  | nftClasses => ClassesRequest.codec
  | nft => NftRequest.codec
  | nfts => NftsRequest.codec
  | owner => OwnerRequest.codec

end MessageType

end TokenLedger
