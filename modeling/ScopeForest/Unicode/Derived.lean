import ScopeForest.Unicode.Category
import ScopeForest.Unicode.Segmentation

namespace ScopeForest.Unicode

def otherAlphabetic : CharSet :=
  charSet
    "bgFAbDMwENBABBBBBAcUKbWMBGQAdXGEDCBEAbJAbEPdYKdXBDIBCBDeCAcILDGGTcCBCOBBFCKBbDCcGGCBCBKAKBbD
    CcGEEBCBEAbEBDALCcGHBCBBVBWCECcGGCBCBJBKBbEAcHEDCBCKAbOEcFGBCBCIBLBbDCcGGBCBCIBLBPAMDcGGBCBC
    KAKBbDCcXFBABHSBcJACGSAdVACFBBQAgHSJKBbJeGLBACDXDECBCCGDDNLBAKDclOBbEBbEBbEBcOShGBbIAeOLEIiO
    EcFJCTcWBLCbXEbWOcICbEICBcFKbYSpWbHcoNbZdkGbFbtqAHbIBnQAIAXEdKBbYPBAcFAbMEbCLbTDbWLbLAcPNMAI
    BbTCbYABCCBFAbSEFAjDHbdzVAdeDEcmGCBBFDbeIDcNAmJBcZCjZCcBNbTBLCbTIJAcJCbKLSBcFCbWMOBdOICAGACA
    gBJXDcGGCBCBKAKBdGIBACABDBBdZMBCeCRjDGCGbDBdEOBAeCKdZNjXMjNFBBCBDABAfMGCFEAbCJbQEBDSKbUNhSHh
    RHBGdFVBNeSFDABBBCBADAcOEBBBDnKDJBBAbWGDCyyNQfjCABcCHDdPBbdaYAnkJGBQCGBBBEdWAckHACAHBFAwVAcz
    WZGZGZ"

def otherLowercase : CharSet :=
  charSet
    "gOAPAtHIHBbEEdSAcAAfcZAepZcKNAbIbKbaNANAQMiDPbgQZcwOBbugKBiCAeYDDBbhIDJAbiwSACCBbPBIddzHcJ"

def otherUppercase : CharSet := charSet "mqQPbgGZgsiYZGZGZ"

def otherMath : CharSet :=
  charSet
    "dQAbhXCCAbABCBkqYAbBCLAbGDYBOBcNMEADBEESAEACJBADEGADBCBBCBFDDFEcXECDBBBBBABECBEBERCBBABGBAGB
    lEDgMBBAYARArDBMIFEFBCBDEOABACFYBcFABAbDDJBnEBbFJpNVcLDbGBdclFABAEAiDABAdcoVdGBcSBBCACBCDBLB
    ABGBcMBDCHBGBbBBDBEBADGBnBCYBYBbEBYBbEBYBbEBYBbEBYBHCbXiiQDBbABBBACABJBDBABAGAEABABABCBBBACA
    BABABABABBBACDBGBDBDBABJBQFCBEBQ"

def otherIgnorable : CharSet := charSet "bgPAfiLBckHBdhNAglIAdacPAdBIbwmiHABbDdSeXjGfiL"

def otherGraphemeExtend : CharSet :=
  charSet
    "drYAYAnUAYAdYAYAiYABAEBBBJBdZAYAePAPAdmRAbEAbnKAFABAFBdXAcTBboIAgcVBbtwTAeEAbgnLBgwMAeMAkEAO
    AJAdSAJACABCFAiQAMAjHAkCAyJAMAchFAbeoKBbkxNBGFbtlaZdR"

def otherIdStart : CharSet := charSet "jhLBdgJAVAfvWB"

def otherIdContinue : CharSet := charSet "hBAbbRAgaJIclCAciZBgkRAdaeJA"

def patternSyntax : CharSet :=
  charSet "bHOKGbADBAbADbIGBABBBABBEAEADAXAbFAluEXIOCSBJlTbbRgEyFbEbrNtSeXoVCEYPAczqZBkBB"

def patternWhiteSpace : CharSet := charSet "JESAdWAlyMBYB"

def whiteSpace : CharSet := charSet "JESAdWAbAAihJAdpNKbDBFAbVAfxWA"

def joinControl : CharSet := charSet "mdOB"

def variationSelector : CharSet := charSet "jcTCBAdjcAPbwnkYjF"

def prependedMark : CharSet := charSet "chCFiHAbXAoUBdCAdvxYAPA"

def unstableStart : CharSet := charSet "biGAebOAeXAmvVBczeFFpQBeMABABABABABABABAlBB"

def unstableContinue : CharSet := charSet "biGArcIBczeFFpQBeMABABABABABABABA"

def letterNumbers : CharSet := category.anyOf ["lu", "ll", "lt", "lm", "lo", "nl"]

def lowercase : CharSet := (category.anyOf ["ll"]).union otherLowercase

def uppercase : CharSet := (category.anyOf ["lu"]).union otherUppercase

def alphabetic : CharSet :=
  CharSet.unions [lowercase, uppercase, category.anyOf ["lt", "lm", "lo", "nl"], otherAlphabetic]

def cased : CharSet := CharSet.unions [lowercase, uppercase, category.anyOf ["lt"]]

def caseIgnorable : CharSet :=
  (category.anyOf ["mn", "me", "cf", "lm", "sk"]).union
    (wordBreak.anyOf ["midletter", "midnumlet", "singlequote"])

def math : CharSet := (category.anyOf ["sm"]).union otherMath

def graphemeExtend : CharSet := (category.anyOf ["mn", "me"]).union otherGraphemeExtend

def graphemeBase : CharSet :=
  ((category.anyOf ["cc", "cf", "co", "cn", "zl", "zp"]).union graphemeExtend).compl

def defaultIgnorable : CharSet :=
  (CharSet.unions [otherIgnorable, category.anyOf ["cf"], variationSelector]).diff
    (CharSet.unions [whiteSpace, prependedMark, ⟨[(0xFFF9, 0xFFFB), (0x13430, 0x1345F)]⟩])

def idStart : CharSet :=
  (letterNumbers.union otherIdStart).diff (patternSyntax.union patternWhiteSpace)

def idContinue : CharSet :=
  (CharSet.unions [idStart, category.anyOf ["mn", "mc", "nd", "pc"], otherIdContinue]).diff
    (patternSyntax.union patternWhiteSpace)

def wordChars : CharSet :=
  CharSet.unions [alphabetic, category.anyOf ["mn", "me", "mc", "nd", "pc"], joinControl]

end ScopeForest.Unicode
