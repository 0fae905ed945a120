import WalletConversion.Database.Repositories

/-!
# Asking for a conversion

`GetConversionUseCase.execute` reads one row and answers with its status response. The amounts of
the response are the shortened texts that the accept answers with as well.
-/

namespace WalletConversion

/-- The body of the answer to a status request. -/
structure ConversionStatusResponse where
  conversionId : String
  status : String
  sourceAsset : String
  targetAsset : String
  sourceAmount : String
  targetAmount : String
  createdAt : String
  completedAt : Option String
  deriving DecidableEq

/-- The state of the conversion, with its amounts as every response shows them. -/
def toConversionStatusResponse (conversion : Conversion) : ConversionStatusResponse where
  conversionId := conversion.id.value
  status := conversion.status.text
  sourceAsset := conversion.sourceAmount.asset.code
  targetAsset := conversion.targetAmount.asset.code
  sourceAmount := trimTrailingZeros conversion.sourceAmount.toString
  targetAmount := trimTrailingZeros conversion.targetAmount.toString
  createdAt := conversion.createdAt.timestampText
  completedAt := conversion.completedAt.map Date.timestampText

/-- What became of the request. -/
inductive GetConversionResult where
  | found (body : ConversionStatusResponse)
  | notFound
  | invalidId (message : String)
  deriving DecidableEq

namespace GetConversionUseCase

/-- Look a conversion up. The user is not compared: whoever knows the id may ask. -/
def execute (env : Platform) (conversionIdRaw : String) : App GetConversionResult :=
  let trimmed := trim conversionIdRaw
  if trimmed = "" then return .invalidId "conversionId must not be empty"
  else
    match ConversionId.of trimmed with
    | .error e => return .invalidId e.message
    | .ok conversionId => do
      match ← PrismaConversionRepository.findById env conversionId with
      | none => return .notFound
      | some conversion => return .found (toConversionStatusResponse conversion)

end GetConversionUseCase

end WalletConversion
