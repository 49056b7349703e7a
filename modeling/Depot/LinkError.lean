/-
Why a link or a hash spec is refused. Each refusal keeps the text it is
about, so that its wording is a function of the value.
-/

namespace Depot

/-- A refusal of a link or of a hash spec. -/
inductive LinkError where
  /-- The text is no absolute URL. -/
  | invalidUrl (url reason : String)
  /-- The digest family is unknown or cannot be verified. -/
  | unknownAlgo (name : String)
  /-- The text is not `<algorithm>=<hexadecimal digest>`. -/
  | invalidHashSpec (spec : String)
  /-- The URL names a directory. -/
  | missingBasename (url : String)
  /-- The file name would leave its directory. -/
  | unsafeBasename (basename : String)
  /-- The egg marker names nothing. -/
  | emptyEgg (url : String)
deriving DecidableEq, Repr

/-- The wording of a refusal. -/
def LinkError.message : LinkError → String
  | invalidUrl url reason => "[PXM300] invalid link '" ++ url ++ "': " ++ reason
  | unknownAlgo name => "[PXM301] unsupported hash algorithm '" ++ name ++ "'"
  | invalidHashSpec spec => "[PXM302] malformed hash spec '" ++ spec ++ "'"
  | missingBasename url => "[PXM303] link '" ++ url ++ "' has no file name"
  | unsafeBasename basename =>
      "[PXM304] link file name '" ++ basename ++ "' is not a plain file name"
  | emptyEgg url => "[PXM305] link '" ++ url ++ "' has an empty egg fragment"

end Depot
