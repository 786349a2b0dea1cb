import ScopeForest.Unicode.Derived

namespace ScopeForest.Unicode

def listed : List (List String × String) :=
  [(["asciihexdigit", "ahex"], "bWJHFbAF"),
    (["bidicontrol", "bidic"], "ciEAjvLBbAEcDD"),
    (["changeswhencasefolded", "cwcf"],
      "cNZdMAKWBHbGABABABABABABABABABABABABABABABABABABABABABABABABABABABACABABABABABABABABBBABAB
      ABABABABABABABABABABABABABABABABABABABABBBABABABBBABBBCCDBBBCDBBBBABABBBACABBBCBABBDAHBBBB
      BBABABABABABABABACABABABABABABABABACBBABCBABABABABABABABABABABABABABABABABABABABABABABABAB
      ABABABABAHBBBCABDBABABABAjMAbQABADAIAGABCBABBBQBIWAMCDBBABABABABABABABABABABABABBCBBABBCbY
      bWABABABABABABABABABABABABABABABABAJABABABABABABABABABABABABABABABABABABABABABABABABABABAB
      BBABABABABABACABABABABABABABABABABABABABABABABABABABABABABABABABABABABABABABABABABABABABAB
      ABABABABABABABABABACbLbWAefGbLBAFAbfEFdfUJGbQCCmIABABABABABABABABABABABABABABABABABABABABA
      BABABABABABABABABABABABABABABABABABABABABABABABABABABABABABABABABABABABABABABABABABABABABA
      BABABABABABABABABAFBCABABABABABABABABABABABABABABABABABABABABABABABABABABABABABABABABABABA
      BABABABABABABABABABABABABABAJHIFKHIHIFLABABABAIHQbVCCCFFCCFLDMEFCCFlLADBGAbTPTAbfMZcsUbVbW
      ABCCABABABDBACAICBABABABABABABABABABABABABABABABABABABABABABABABABABABABABABABABABABABABAB
      ABABABABABABABABABABABABAIABAEAbtyJABABABABABABABABABABABABABABABABABABABABABABATABABABABA
      BABABABABABABABABAfFABABABABABABADABABABABABABABABABABABABABABABABABABABABABABABABABABABAB
      ABABAKABABBBABABABAEABACABADABABABABABABABABABABEBEBABABABABABABABDBABBBABABABABABABABAYAb
      iGdBbeaIGMEbnTZbuZbNfGbJgAKBOBGBBcqCbYgBVegObFbgjWbFcMYbuhZbH"),
    (["changeswhenlowercased", "cwl"],
      "cNZdXWBGbHABABABABABABABABABABABABABABABABABABABABABABABABABABABACABABABABABABABACABABABAB
      ABABABABABABABABABABABABABABABABABABABBBABADBBABBBCCDBBBCDBBBBABABBBACABBBCBABBDAHBBBBBBAB
      ABABABABABABACABABABABABABABABACBBABCBABABABABABABABABABABABABABABABABABABABABABABABABABAB
      ABABAHBBBCABDBABABABAlDABADAIAGABCBABBBQBIbJAIABABABABABABABABABABABAFACABBCbYbWABABABABAB
      ABABABABABABABABABABABAJABABABABABABABABABABABABABABABABABABABABABABABABABABABBBABABABABAB
      ACABABABABABABABABABABABABABABABABABABABABABABABABABABABABABABABABABABABABABABABABABABABAB
      ABABABACbLehDbLBAFAbbUdHdgLAGbQCCmIABABABABABABABABABABABABABABABABABABABABABABABABABABABA
      BABABABABABABABABABABABABABABABABABABABABABABABABABABABABABABABABABABABABABABABABABABABABA
      BABAJABABABABABABABABABABABABABABABABABABABABABABABABABABABABABABABABABABABABABABABABABABA
      BABABABABABAJHIFKHIHIFLABABABAIHYHIHIHIELELDMELElLADBGAbTPTAbfMZcsUbVbWABCCABABABDBACAICBA
      BABABABABABABABABABABABABABABABABABABABABABABABABABABABABABABABABABABABABABABABABABABABABA
      BABABAIABAEAbtyJABABABABABABABABABABABABABABABABABABABABABABATABABABABABABABABABABABABABAf
      FABABABABABABADABABABABABABABABABABABABABABABABABABABABABABABABABABABABABABAKABABBBABABABA
      EABACABADABABABABABABABABABABEBEBABABABABABABABDBABBBABABABABABABABAYAbhaHZbuZbNfGbJgAKBOB
      GBBcqCbYgBVegObFbgjWbFcMYbuhZbH"),
    (["changeswhentitlecased", "cwt"],
      "dTZcGAbPXBHBABABABABABABABABABABABABABABABABABABABABABABABABABABABACABABABABABABABBBABABAB
      ABABABABABABABABABABABABABABABABABABABACABABCCABACADAFACADCCACABABACAEACADABACADABAEABBBBB
      ABABABABABABABABBBABABABABABABABABCBABADABABABABABABABABABABABABABABABABABABABADABABABABAB
      ABABABAIACBBAEABABABABFBBBABBDBBDBECABBCAHACABBDFFAKBgKAbRABADADCSAbBbIBBDCBABABABABABABAB
      ABABABABEBACACAcAbVBABABABABABABABABABABABABABABABABAJABABABABABABABABABABABABABABABABABAB
      ABABABABABABABABACABABABABABABBBABABABABABABABABABABABABABABABABABABABABABABABABABABABABAB
      ABABABABABABABABABABABABABABABABABABAbXbMfmEFdfUIBAjEADAQAeKABABABABABABABABABABABABABABAB
      ABABABABABABABABABABABABABABABABABABABABABABABABABABABABABABABABABABABABABABABABABABABABAB
      ABABABABABABABABABABABABABABGFABABABABABABABABABABABABABABABABABABABABABABABABABABABABABAB
      ABABABABABABABABABABABABABABABABABIIFKHIHIFKHIHINCHIHIHIEBBGADCBBIDCBIHKCBBnEAbHPEAbgLZctQ
      bVBADBBABABAGACAKABABABABABABABABABABABABABABABABABABABABABABABABABABABABABABABABABABABABA
      BABABABABABABABABABABABABAIABAEAMbLBAFAbtwDABABABABABABABABABABABABABABABABABABABABABABATA
      BABABABABABABABABABABABABAfFABABABABABABADABABABABABABABABABABABABABABABABABABABABABABABAB
      ABABABABABABAKABACABABABABAEAEABBCABABABABABABABABABALABABABABABABABAEABACABABABABABABABAb
      AAbhCAbCdBbeaIGMEboZZbvHbNfGbJfZKBOBGBBcrBbYeVVegObFbgjWbFcHYbuiGbH"),
    (["changeswhenuppercased", "cwu"],
      "dTZcGAbPXBHBABABABABABABABABABABABABABABABABABABABABABABABABABABABACABABABABABABABBBABABAB
      ABABABABABABABABABABABABABABABABABABABACABABCCABACADAFACADCCACABABACAEACADABACADABAFBBBBBB
      ABABABABABABABBBABABABABABABABABBBBBADABABABABABABABABABABABABABABABABABABABADABABABABABAB
      ABABAIACBBAEABABABABFBBBABBDBBDBECABBCAHACABBDFFAKBgKAbRABADADCSAbBbIBBDCBABABABABABABABAB
      ABABABEBACACAcAbVBABABABABABABABABABABABABABABABABAJABABABABABABABABABABABABABABABABABABAB
      ABABABABABABABACABABABABABABBBABABABABABABABABABABABABABABABABABABABABABABABABABABABABABAB
      ABABABABABABABABABABABABABABABABABAbXbMehCbQCCbdGFdfUIBAjEADAQAeKABABABABABABABABABABABABA
      BABABABABABABABABABABABABABABABABABABABABABABABABABABABABABABABABABABABABABABABABABABABABA
      BABABABABABABABABABABABABABABABABGFABABABABABABABABABABABABABABABABABABABABABABABABABABABA
      BABABABABABABABABABABABABABABABABABABABIIFKHIHIFKHIHINCcABBEABADCBBEADDCBIHKCBBEAmZAbHPEAb
      gLZctQbVBADBBABABAGACAKABABABABABABABABABABABABABABABABABABABABABABABABABABABABABABABABABA
      BABABABABABABABABABABABABABABABAIABAEAMbLBAFAbtwDABABABABABABABABABABABABABABABABABABABABA
      BABATABABABABABABABABABABABABABAfFABABABABABABADABABABABABABABABABABABABABABABABABABABABAB
      ABABABABABABABABABAKABACABABABABAEAEABBCABABABABABABABABABALABABABABABABABAEABACABABABABAB
      ABABAbAAbhCAbCdBbeaIGMEboZZbvHbNfGbJfZKBOBGBBcrBbYeVVegObFbgjWbFcHYbuiGbH"),
    (["dash"], "bTAcaUAbZAfkJAbnPAdbDFcJAbNAPApAAeoIACAbFBEAbCArEATAeHAczwABbLAKAgNAflOAmGA"),
    (["deprecated", "dep"], "mRAbyVAdkTABAdcJBdiJFbaVBbzryKA"),
    (["diacritic", "dia"],
      "dQABAcTAGAEACBtJgCBHFFRBEAJBjTEiBAcDbSBABBBBBAfBHEBfEBEBDCcPbAdNKcGKbIBeWHbPJQbBcJAQADDbCA
      cWAQAeGAQAeGAQAbVCcIAQAHAePAeGAQAeGAQAeFBQAeUAeHAMFBAeDANEcXBbBABABAEBcOCBBcKAeIABBbOBEEZG
      BAKBbbDCbkMBbEAfSKJAnJClGAUHCAbWOCKDOCLcUAPAbMIcCBcGALBcOBcMFdEYEAGACCbYcKbWbJFLbLKrDABCLC
      NCNCNBexKCmFAtMFeBDdRAbsmKAMBBAbCBdEBObHdYCdYAGBMAbLAfVAbBRcFDbKAdRAMAbKAfTCcNDbZAdWEJCeYB
      bdzSAbdPPkKABAbVAbTBcPAbdKAbtNFBbPBIyNCEAgJBvZFbMAbAEpGACCcSKbXDhKAbPAcUBeQBcKAcYAJCeABgWB
      dCBQAYGDEdLCBBNBdRADAeTBjRBeWAeOBeLAkJBjYBEAgAAdFASAdDAqFAjYABBdDAcNAnVBXAhyAOqzPAdsAEcHGv
      SBvAQdCBygCDBGBBltHbTCWuYCDFIHCGbEDfmWcJhMGoLAcJDbdMBbcIGeFCBC"),
    (["emoji"],
      "bJAGAFJeHAEAlyRAMAiIAWAdMFPBoDBMAgKAZKEChRAiXBKAJAcGDBEJACACBCAEACABBCADADBICFABAFLLBCABBB
      ASACBSFBABBDBFACBEBLBFBCAFBBABBUBFFBDCAEACACFBACABABAGADAGAKBPACAEABAECBALBbWCJAOAOAoIBrVC
      TBbZAEAbvUAMAxDABAgmrQAhUAgEBMBOACJcXZBBXAUACIVBgSbHCeHCBBCCdECCBkCBcKLFBXHBCHMACDCAEBNBCA
      IBJAFCMCICCABAEAGADAGdHbWcRFHCDDJDABBDACJiTLEAkXbUBJBhCeIMDKDcEBAEPCLEJ"),
    (["emojicomponent", "ecomp"], "bJAGAFJmbJAiFAdftRAdoiWZtNEceADbsvuQdR"),
    (["emojimodifier", "emod"], "hhiXE"),
    (["emojimodifierbase", "ebase"],
      "olHAiLAQDgsjVAcICCACCeNBCKVSDAECBCHABAYAhTBEAVAEBgSCDEdFAQCJALAwDACAIHGAJJCCcEAcJBBBBARCBM
      iVCbQI"),
    (["emojipresentation", "epres"],
      "nhQBhXDDACAuBBVBbYLbRATANAIBRBFBIAFAVAHBBAEACAHAEBbCAbJABAECBAcJCYAOAbhBBbZAEAgplEAhUAhIAC
      JcXZBAYAUACEBCVBgSbGMIBcRBVMbQEEMQDADcSBABhECcKNDBXSAbABNAdIdGbWcRGADCCDDDLBHIiTLEAkXbUBJB
      hCeIMDKDcEBAEPCLEJ"),
    (["extendedpictographic", "extpict"],
      "gNAEAlyRAMAiIAWAdMFPBoDBMAdRAcSAZKEChRAiXBKAJAcGDBFBLBeJKeNCKBABAGADAGAKBPACAEABAECBALEbTC
      JAOAOAoIBrVCTBbZAEAbvUAMAxDABAgmrMjVNCbFAcIFMBOACJScEbBOKAUACIBDJqRFmFIkFbWeXeMLdHbQMDcEHK
      FbOHbEdDMbUBJBqYjWbnH"),
    (["extender", "ext"],
      "hBAuQBbhUAqZAyGAfHAdLAbcYAeXAdnFAcEAxNApIAcQAhkJAbREdZBdPCbqbUAcgSAblAAWAfHAeEAVBbfzVAdbKB
      cfBAbBAEAbvBAlHAeMBtECbvJAbgAAbdiEBbtKBBAOBbqxKBbuFAbgUC"),
    (["graphemelink", "grlink"],
      "dnPAeXAeXAeXAeXAeXAeXAeXAeFBQAeUAeHAeXAhTAgYBcpLBbEAgBAzDAiTAdXBcSBgqTAbukKAbLAfVAfMAeEAlX
      AjMAbjsRAchIAbPAOAcFAeRBfJAeMAgYAdUAeYCeJAeXAjSAeXAeOAeMAkJAjZBgFAdFASAdDAqFAkABdDAqJByzCA"),
    (["hexdigit", "hex"], "bWJHFbAFdslLJHFbAF"),
    (["hyphen"], "bTAeXAbvWAgzZAdbDBfiBAbcLAczuLAgNAdJA"),
    (["idsbinaryoperator", "idsb"], "seABCJtDA"),
    (["idstrinaryoperator", "idst"], "seCB"),
    (["idsunaryoperator", "idsu"], "seOB"),
    (["idcompatmathcontinue"], "gWBFAmaGADKBOoHAEAWAgjjEAZAbFAZAbFAZAbFAZAbFAZA"),
    (["idcompatmathstart"], "mwWAEAWAgjjEAZAbFAZAbFAZAbFAZAbFAZA"),
    (["ideographic", "ideo"],
      "seWBZIOCblDjtNcMbfbJbhsIoBCeBbsiKANEJkxXbPbFdTeKnlLpFbdeIclfBbGgmNCioBClbKPxXdqWuVcfYhhYFm
      oN"),
    (["logicalorderexception", "loe"], "fkIEeTEedSCCAccxMBCABB"),
    (["modifiercombiningmark", "mcm"], "ckIBCAfBAGADBsNBBCDAbFA"),
    (["noncharactercodepoint", "nchar"],
      "dsdCbFuGBdsyOBdsyOBdsyOBdsyOBdsyOBdsyOBdsyOBdsyOBdsyOBdsyOBdsyOBdsyOBdsyOBdsyOBdsyOBdsyOB"),
    (["quotationmark", "qmark"], "bIAEAfBAPAlwUHZBfiDArPDNCdabPDhHAEAdMB"),
    (["radical"], "rpWZBdKMiF"),
    (["regionalindicator", "ri"], "hgoKZ"),
    (["sentenceterminal", "sterm"],
      "bHAMAQAcaBAfRCgYAbRCjMAcJABADBlHBcpWBbeKAEBbdTAhQBgBBbTAFAmCBnQDgGBKBCBbDChFBcNBbjWAXBJCeu
      XClUANAWBqNAbshWAkKBiTADAoSBdIBdRAfWBfRCfOBjPAbfcWACBcHADBgNAMAQAcNAedWBbxDEbSDhHBeNDeXCeZ
      BGAQBdKBBBeEAlMBeNBoJBFOeBBjPCtXABAjRBdJBqEBbaQBcWBbcmBBfDAcNBLAvHBlKAbdoGAliMA"),
    (["softdotted", "sd"],
      "eBBhOAkVAbEAcAAUAmIAdUABAjmNAbZANADAfCAgBAqFAiGBegGAgelHBbYBbYBbYBbYBbYBbYBbYBbYBbYBbYBbYB
      bYBdfYAlTBbAA"),
    (["terminalpunctuation", "term"],
      "bHAKABALBDAbfYAIAtTAcFAcUAOABCgYAbRKBAjBBcCFBHbFAkBBbwUBgQAEFlZBbeJHbdTAeUCcTBgBCDAbNDCBmC
      BnQDgGBKBBCbDChFEcKBbjWAXBJCeuXClUANAEAKABBDBqMBbshVBkJCiTEoSBdIBdRAfVCfRCeXAQBjPAbfcWACBc
      FCBDgNAKABALBDAcNACAbpQAbWAbsOAhRAlYBfWFcQFdLDbkQEbSDhHGeIDeXCeZBGAQBdKEeEAlMBeNCMBnUDDOeB
      BjPCtXABAjRBdJBEBpYCbTAyVBcWBbyXEbamZBfDAcNCKAvHBlJBbdoGAliLD"),
    (["unifiedideograph", "uideo"],
      "tsAjtNcMbfbJbicSBBABBKABABBCCdveCclfBbGgmNCioBClbKPxXgrQhhYFmoN")]

def derived : List (List String × CharSet) :=
  [(["alphabetic", "alpha"], alphabetic),
    (["caseignorable", "ci"], caseIgnorable),
    (["cased"], cased),
    (["defaultignorablecodepoint", "di"], defaultIgnorable),
    (["graphemebase", "grbase"], graphemeBase),
    (["graphemeextend", "grext"], graphemeExtend),
    (["idcontinue", "idc"], idContinue),
    (["idstart", "ids"], idStart),
    (["joincontrol", "joinc"], joinControl),
    (["lowercase", "lower"], lowercase),
    (["math"], math),
    (["patternsyntax", "patsyn"], patternSyntax),
    (["patternwhitespace", "patws"], patternWhiteSpace),
    (["prependedconcatenationmark", "pcm"], prependedMark),
    (["uppercase", "upper"], uppercase),
    (["variationselector", "vs"], variationSelector),
    (["whitespace", "wspace", "space"], whiteSpace),
    (["xidcontinue", "xidc"], idContinue.diff unstableContinue),
    (["xidstart", "xids"], idStart.diff unstableStart),
    (["otheralphabetic", "oalpha"], otherAlphabetic),
    (["otherdefaultignorablecodepoint", "odi"], otherIgnorable),
    (["othergraphemeextend", "ogrext"], otherGraphemeExtend),
    (["otheridcontinue", "oidc"], otherIdContinue),
    (["otheridstart", "oids"], otherIdStart),
    (["otherlowercase", "olower"], otherLowercase),
    (["othermath", "omath"], otherMath),
    (["otheruppercase", "oupper"], otherUppercase)]

def caseMapped : CharSet :=
  CharSet.unions ((listed.filter fun p ↦ p.1.any ["cwl", "cwt", "cwu"].contains).map fun p ↦
    charSet p.2)

def propertySet? (name : String) : Option CharSet :=
  if ["changeswhencasemapped", "cwcm"].contains name then some caseMapped
  else match derived.find? (·.1.contains name) with
    | some p => some p.2
    | none => (listed.find? (·.1.contains name)).map fun p ↦ charSet p.2

end ScopeForest.Unicode
