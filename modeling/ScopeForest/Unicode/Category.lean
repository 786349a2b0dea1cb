import ScopeForest.Unicode.Table

namespace ScopeForest.Unicode

def category : Enumeration where
  values :=
    [["cn", "unassigned"], ["lu", "uppercaseletter"], ["ll", "lowercaseletter"],
      ["lt", "titlecaseletter"], ["lm", "modifierletter"], ["lo", "otherletter"],
      ["mn", "nonspacingmark"], ["me", "enclosingmark"], ["mc", "spacingmark"],
      ["nd", "decimalnumber", "digit"], ["nl", "letternumber"], ["no", "othernumber"],
      ["zs", "spaceseparator"], ["zl", "lineseparator"], ["zp", "paragraphseparator"],
      ["cc", "control", "cntrl"], ["cf", "format"], ["co", "privateuse"], [],
      ["pd", "dashpunctuation"], ["ps", "openpunctuation"], ["pe", "closepunctuation"],
      ["pc", "connectorpunctuation"], ["po", "otherpunctuation"], ["sm", "mathsymbol"],
      ["sc", "currencysymbol"], ["sk", "modifiersymbol"], ["so", "othersymbol"],
      ["pi", "initialpunctuation"], ["pf", "finalpunctuation"]]
  table :=
    "PbFMAXCZAXCUAVAXAYAXATAXBJJXBYCXBBZUAXAVAbAAWAbAACZUAYAVAYAPbGMAXAZDbBAXAbAAbBAFAbCAYAQAbBAb
    AAbBAYALBbAACAXBbAALAFAbDALCXABWYABGCXYACHBACABACABACABACABACABACABACABACABACABACABACABACABA
    CABACABACABACABACABACABACABACABACABACABACABACABACABACABACABACBBACABACABACABACABACABACABACABA
    CBBACABACABACABACABACABACABACABACABACABACABACABACABACABACABACABACABACABACABACABACABACABACABA
    CABBCABACABACCBBCABACABBCABCCBBDCABBCABCCCBBCABBCABACABACABBCABACBBACABBCABCCABACABBCBFABACC
    FDBADACABADACABADACABACABACABACABACABACABACABACABACBBACABACABACABACABACABACABACABACABACBBADA
    CABACABCCABACABACABACABACABACABACABACABACABACABACABACABACABACABACABACABACABACABACABACABACABA
    CABACABACABACABACABACABACABACABACGBBCABBCBBACABDCABACABACABACABACcQFBCZERbADELbANEEbAGEAbAAE
    AbAQGeHBACABACAEAbAABACAABEACCXABAADbABBAXABCAABAAABBCABQAABICbIBACBBCCCBACABACABACABACABACA
    BACABACABACABACABACABACABACEBACAYABACABBCBBbYCbVBACABACABACABACABACABACABACABACABACABACABACA
    BACABACABACABACABACABACAbBAGEHBBACABACABACABACABACABACABACABACABACABACABACABACABACABACABACAB
    ACABACABACABACABACABACABACABACABACABACABACABACABBCABACABACABACABACABACABACBBACABACABACABACAB
    ACABACABACABACABACABACABACABACABACABACABACABACABACABACABACABACABACABACABACABACABACABACABACAB
    ACABACABACABACABACABACABACABACABACABACABACABACABACABACABACABACABACABACABACABACABACAAABbLABEA
    XFCbOXATAABbBBZAAAGbSTAGAXAGBXAGBXAGAAHFbAADFDXBAKQFYCXBZAXBbBBGKXAQAXCFbFEAFJGUJJXDFBGAFdUX
    AFAGGQAbBAGFEBGBbBAGDFBJJFCbBBFAXNAAQAFAGAFbDGbAABFdKGKFAANJJFbGGIEBbBAXCEAABGAZBFVGDEAGIEAG
    CEAGEABXOAAFYGCABXAAAFKAEFXbAAFGQBAEGIFbOEAGXQAGbFIAFcBGAIAGAFAICGHIDGAIBFAGGFJGBXBJJXAEAFOG
    AIBAAFHABFBABFVAAFGAAFAACFDABGAFAICGDABIBABIBGAFAAHIAADFBAAFCGBABJJFBZBLFbBAZAFAXAGAABGBIAAA
    FFADFBABFVAAFGAAFBAAFBAAFBABGAAAICGBADGBABGCACGAAGFDAAFAAGJJGBFCGAXAAJGBIAAAFIAAFCAAFVAAFGAA
    FBAAFEABGAFAICGEAAGBIAAAIBGAABFAAOFBGBABJJXAZAAGFAGFAAGAIBAAFHABFBABFVAAFGAAFBAAFEABGAFAIAGA
    IAGDABIBABIBGAAGGBIAADFBAAFCGBABJJbBAFALFAJGAFAAAFFACFCAAFDACFBAAFAAAFBACFBACFCACFLADIBGAIBA
    CICAAICGAABFAAFIAANJJLCbBFZAbBAAEGAICGAFHAAFCAAFWAAFPABGAFAGCIDAAGCAAGDAGGBAAFCAAFBABFBGBABJ
    JAGXALGbBAFAGAIBXAFHAAFCAAFWAAFJAAFEABGAFAIAGAIEAAGAIBAAIBGBAGIBAEFCAAFBGBABJJAAFBIAALGBIBFI
    AAFCAAFbOGBFAICGDAAICAAICGAFAbBAADFCIALGFCGBABJJLIbBAFFAAGAIBAAFRACFXAAFIAAFAABFGACGAADICGCA
    AGAAAIHAFJJABIBXAALFbVGAFBGGADZAFFEAGHXAJJXBAbKFBAAFAAAFEAAFXAAFAAAFJGAFBGIFAABFEAAEAAAGGAAJ
    JABFDAbFFAbBCXObBAXAbBCGBbBFJJLJbBAGAbBAGAbBAGAUAVAUAVAIBFHAAFbJADGNIAGEXAGBFEGKAAGbJAAbBHGA
    bBFAAbBBXEbBDXBAbKFbQIBGDIAGFIAGBIBGBFAJJXFFFIBGBFDGCFAICFBIGFCGDFMGAIBGBIFGAFAIAJJICGAbBBBb
    LAABAAEBAABCbQXAEACCFmQAAFDABFGAAFAAAFDABFbOAAFDABFbGAAFDABFGAAFAAAFDABFOAAFcEAAFDABFcOABGCX
    ILTACFPbBJAFBdHABCFABTAFxVbBAXAFQMAFZUAVAACFcWXCKCFHAGFRGCIAAIFSGBIAXBAIFRGBALFMAAFCAAGBALFb
    ZGBIAGGIHGAIBGKXCEAXCZAFAGAABJJAFLJAFXFTAXDGCQAGAJJAFFbIEAFcAAGFEGBFbHGAFAAEFcRAJFbEAAGCIDGB
    ICADIBGAIFGCADbBAACXBJJFbDABFEAKFbRADFZAFJJLAACbBbHFWGBIBGAABXBFcAIAGAIAGGAAGAIAGAIBGHIFGJAB
    GAJJAFJJAFXGEAXFABGNHAGbEABGLATGDIAFbUGAIAGEIAGAIEGAIBFHAAXBJJXGbBJGIbBIXCGBIAFbDIAGDIBGBIAG
    CFBJJFbRGAIAGBICGAIAGCIBAHXDFbJIHGHIBGBACXEJJACFCJJFbDEFXBCIBACAAEBbQABBCXHAHGCXAGMIAGGFDGAF
    FGAFBIAGBFAAECbREcKCMEACbHEbKGcLBACABACABACABACABACABACABACABACABACABACABACABACABACABACABACA
    BACABACABACABACABACABACABACABACABACABACABACABACABACABACABACABACABACABACABACABACABACABACABACA
    BACABACABACABACABACABACABACABACABACABACABACABACABACABACABACABACABACABACABACABACABACABACABACA
    BACABACABACABACABACABACABACABACABACABACABACABACABACABACIBACABACABACABACABACABACABACABACABACA
    BACABACABACABACABACABACABACABACABACABACABACABACABACABACABACABACABACABACABACABACABACABACABACA
    BACABACABACABACABACABACABACABACABACABACABACABACABACABACABACABACABACIBHCFABBFABCHBHCHBHCFABBF
    ABCHAABAAABAAABAAABACHBHCNABCHDHCHDHCHDHCEAACBBDDAbAACAbACCCAACBBDDAbACCDABCBBDAAbACCHBEbACA
    BCCAACBBDDAbABAAMKQETFXBbCAbDAUAbCBbDAUAbCAXHNAOAQEMAXIbCAbDAXDWBXCYAUAVAXKYAXAWAXJMAQEAAQJL
    AEAABLFYCUAVAEALJYCUAVAAAEMACZbHANGMHDGAHCGLAObBBBAbBDBAbBBCABCCBBCCAbBABAbBBYABEbBFBAbBABAb
    BABAbBABDbBACABDCAFDCAbBBCBBBYEBACDbBAYAbBBCAbBALPKbIBACAKDLAbBBADYEbBEYBbBDYAbBBYAbBBYAbBGY
    AbBbEYBbBBYAbBAYAbBbEYkHbBHUAVAUAVAbBTYBbBGUAVAbBdCYAbBbDYYbBbNYFbBcTAVbBKAULcHbBcZLVbBhAYAb
    BIYAbBcBYHbBeGYAbBjNUAVAUAVAUAVAUAVAUAVAUAVAUAVALbDbBbRYEUAVAYbEUAVAUAVAUAVAUAVAUAVAYPbBjVYf
    AUAVAUAVAUAVAUAVAUAVAUAVAUAVAUAVAUAVAUAVAUAVAYcKUAVAUAVAYbFUAVAYjXbBbVYUbBBYFbBbMABbBfHBbVCb
    VBACABCCBBACABACABACABDCABACBBACFEBBCCABACABACABACABACABACABACABACABACABACABACABACABACABACAB
    ACABACABACABACABACABACABACABACABACABACABACABACABACABACABACABACABACABACABACABACABACABACABACAB
    ACABACABACABACABACABACABACABACABACABACABACABACABACBbBFBACABACAGCBACAAEXDLAXBCbLAACAAECAABFcD
    AGEAXAANGAFWAIFGAAFGAAFGAAFGAAFGAAFGAAFGAAFGAAGbFXBbCAbDAbCAbDAXCbCAbDAXAbCAbDAXITAXBTAXAbCA
    bDAXBbCAbDAUAVAUAVAUAVAUAVAXEEAXJTBXDTAXAUAXMbBBXCUAVAUAVAUAVAUAVATAAbHbBZAAbBdKALbBiFAZbBPM
    AXCbBAEAFAKAUAVAUAVAUAVAUAVAUAVAbBBUAVAUAVAUAVAUAVATAUAVBbBAKIGDIBTAEEbBBKCEAFAXAbBBAAFdHABG
    BbABEBFATAFdLXAECFAAEFbQAAFdPAAbBBLDbBJFbFbBbLAIbBAFPbBbEAALJbBbDLHbBALObBbFLJbBbMLObBmHFjtN
    bBcLFbfcEEAFbrYACbBcCAIFbNEFXBFkHEAXCFPJJFBATBACABACABACABACABACABACABACABACABACABACABACABAC
    ABACABACABACABACABACABACABACABACABACABACABACAFAGAHCXAGJXAEABACABACABACABACABACABACABACABACAB
    ACABACABACABACABACABACAEBGBFcRKJGBXFAHbAWEIbABBACABACABACABACABACABACABACCBACABACABACABACABA
    CABACABACABACABACABACABACABACABACABACABACABACABACABACABACABACABACABACABACABACABACABACABACABA
    CABACABACABACAEACHBACABACABBCABACABACABACABACAEAbABBACABACAFABACABACCBACABACABACABACABACABAC
    ABACABACABACABACABECABECABACABACABACABACABACABACABACABDCABACABBCABACABACABACABACABACABACABAC
    ABAATEDBACAFAEBCAFGGAFCGAFDGAFWIBGBIAbBDGAACLFbBBZAbBAAFFbZXDAHIBFbXIPGBAHXBJJAFGRFFXCFAXAFB
    GAJJFbBGHXBFWGKIBAKXAFbCACGCIAFbUGAIBGDIBGBICXMAAEAJJADXBFEGAEAFIJJFEAAFbOGFIBGBIBGBAIFCGAFH
    GAIAABJJABXDFPEAFFbBCFAIAGAIAFbXGAFAGCFBGBFEGBFAGAFAAXFBEAXBFKIAGBIBXBFAEBIAGAAJFFABFFABFFAI
    FGAAFGAACbQbAAEDCIEAbABADCdBFbIIBGAIBGAIBXAIAGAABJJAFFqnRALFWADFbWADSdaTRjmDFoBABFeBAbLCGALC
    EAEFAGAFJYAFMAAFEAAFAAAFBAAFBAAFeDbAQbBPFnYVAUAbBPFcLbBBFcBbBHAbFFLZAbBCGPXGUAVAXAAFGPXATBWB
    UAVAUAVAUAVAUAVAUAVAUAVAUAVAUAVAXBUAVAXDWCXCAAXDTAUAVAUAVAUAVAXCYATAYCAAXAZAXBADFEAAFfEABQAA
    AXCZAXCUAVAXAYAXATAXBJJXBYCXBBZUAXAVAbAAWAbAACZUAYAVAYAUAVAXAUAVAXBFJEAFbSEBFbEACFFABFFABFFA
    BFCACZBYAbAAbBAZBAAbBAYDbBBAJQCbBBABFLAAFZAAFSAAFBAAFOABFNAbHFeSAEXCADLbSACbBIKcALDbBQLBbBCA
    AbBMACbBAAbUbBbSGAAeZFbCACFbWAOGALbAADFbFLDAIFTKAFHKAAEFbLGEAEFbDAAXAFbJADFHXAKEAbPBbNCbNFcZ
    ABJJAFBbJADCbJADFbNAHFbZAKXABKAABOAABGAABBAACKAACOAACGAACBACFbZALFlYAIFVAJFHAXEFAAEbPAAEIAcQ
    FFABFAAAFbRAAFBACFAABFWAAXALHFWbBBLGFbEAHLIAbVFSAAFBAELEFVLFACXAFZAEXAFZAbLFcDADLBFBLPABLbTF
    AGCAAGBAEGDFDAAFCAAFbCABGCADGALIAGXIAGFbCLBXAFbCLCAbFFHbBAFbBGBADLEXGAIFcBACXGFVABLHFSAELHFR
    AGXDALLGAdBFcUAcCBbYAMCbYAGLFFbJGDAHJJAFJJFDEAFABVACGETAEACVAHYBAhZLbEAAFbPAAGBTAABFBAPFCEAF
    BAHXAbBHAbGGFFbCLJFAAHFVGKLDXEAVFRGDXDAbLFULGATFWAIIAGAIAFcAGOXGADLTJJGAFBGBFAAIGCIAFbSICGDI
    BGBXBQAXDGAAJQAABFYAGJJAFGCFbJGEIAGHAAJJXDFAIBFAAHFbIGAXBFAAIGBIAFbVICGIIBFDXDGDXAIAGAJJFAXA
    FAXCAALTAKFRAAFYICGCIBGAIAGBXFGAFBGAAcJFGAAFAAAFDAAFOAAFJXAAFFbUGAICGHAEJJAFGBIBAAFHABFBABFV
    AAFGAAFBAAFEAAGBFAIBGAIDABIBABICABFAAFIAAEFEIBABGGACGEAKFJAAFAABFAAAFbLAAFAICGFAAIAABIAAAIDA
    AIBGAIAGAFAGAFAXBAAXBAHGBAbCFcAICGHIBGCIAGAFDXEJJXBAAXAGAFCAbDFbVICGFIAGAIDGBIAGBFBXAFAAHJJA
    gJFbUICGDABIDGBIAGBXWFDGBAbHFbVICGHIBGAIAGBXCFAAKJJAFXMASFbQGAIAGAIBGFIAGAFAXAAFJJAFJTAbBFbA
    ABGAIAGAIBGDIAGEADJJLBXCbBAFGAhCFbRICGIIAGBXAAdVBbFCbFJJLIALFHABFAABFHAAFBAAFXIFAAIBABGBIAGA
    FAIAFAIAGAXCAIJJAcRFHABFbMICGDABGBIDGAFAXAFAIAAbAFAGJFbNGFIAFAGDXHGAAHFAGFIBGCFbTGMIAGBXCFAX
    EAMFcUAGXJAdHGAIAGCIAGAIAAdJFbGXAANJJAFFIAAFbKIAGGAAGFIAGAFAXEAJJJLSACXBFbDABGVAAIAGGIAGBIAG
    BAcUFGAAFBAAFbLGFACGAAAGBAAGGFAGAAHJJAFFFAAFBAAFbFIEAAGBAAIBGAIAGAFAAGJJAFFbOEAFBADJJAjLFSGB
    IBXBAGGBFAIAFMAAFbHIBGEACIBGAIAGAXMJJGAAdGFAAOLUbBHZDbBQAMXAFbjLAdXKeGAAXEAKFhNAdxJFdSXBAMFb
    pFQPGAFFGOAJFfxQAEFwKAkdCFbDGLICGCJJAcoRFvWAGFbEAAJJADXBFdAAAJJAFFbDABGEXAAJFbVGGXEbBDEDXAbB
    AAJJJAALGAAFUAEFSAqPECFbNEBXCJJAhPBbFCbFLWXDAEBYABCYAbRFcWADGAFAIcCAGGDEMAcLEBXAEAGAAKIBEBKC
    AIFkxXAbOFbFAdSFeKAmwQEDAAEGAAEBAAFlEAOFAAbCFCABFAANFDAHFpFAdkTFeCAEFMACFIAGFJABbBAGBXAQDAfv
    FbBjFJJbBCACbBqTAFbBWAObBPYAAOGbTABGWAIbBeLAcHbBjLAJbBbMABbBcHIBGCbBCIFQHGHbBBGGbBbDGDbBcIAU
    bBcNGCbBAAeRLTALLTALbBdIAILYAfEBZCZBZCGAACRBZCZBAAABBABBAABBBABBDAABHCDAACAAACGAACKBZCZBBAAB
    DABBHAABGAACZBBAABDAABEAABAACBGAACZBZCZBZCZBZCZBZCZBZCZBZCbBABBYYACYYACFBYYACYYACFBYYACYYACF
    BYYACYYACFBYYACYYACFBACAABJbXbBtRGcCbBDGbXbBHGAbBNGAbBBXEAOGEAAGOAbqLCJFACTAFCFAiEGGAAGQABGG
    AAGBAAGEAEEcJAbGGAAeHFbSACGGEGABJJADFAbBAAmHFbDGAAQFbRGDJJAEZAArVFbAEAGDJJAiFFbDGBFAJJADXAAh
    JFbEAAFCGAFBGAFGGBFEGAAHFAEAAiPFGAAFDAAFBAAFOAAFhOABLIGGAbOBbHCbHGGEAADJJADXBAbeELcGbBALCZAL
    DAcXLbSbBALOAhLFDAAFbAAAFBAAFAABFAAAFJAAFDAAFAAAFAAFFAADFAAAFAAAFAAAFCAAFBAAFAABFAAAFAAAFAAA
    FAAAFAAAFBAAFAABFDAAFGAAFDAAFDAAFAAAFJAAFQAEFCAAFEAAFQAbZYBAkJbBbRADbBdVALbBOABbBOAAbBOAAbBb
    KAJLMbBgEAcDbBbCAMbBbRADbBIAGbBBANbBFAfXbBjQbAEbBbcAACbBQACbBMACbBiJAFbBLADbBAAObBLADbBcDAHb
    BJAFbBbNAHbBbDABbBLADbBBANYIAbMbBnFAHbBNABbBMACbBKACbBcEAAbBAADbBPABbBLADbBJAGbBfQAAbBdNJJbB
    AAbnOFclfBAbFFgmNABFioBABFlbKAOFxXAdqVFuVAcfXFhhYAEFmoNAbogoCQAAbDQdRAeXGjFAdsfNRdsyNABRdsyN
    AB"

def categoryGroups : List (List String × List String) :=
  [(["l", "letter"], ["lu", "ll", "lt", "lm", "lo"]),
    (["lc", "casedletter"], ["lu", "ll", "lt"]),
    (["m", "mark", "combiningmark"], ["mn", "me", "mc"]),
    (["n", "number"], ["nd", "nl", "no"]),
    (["z", "separator"], ["zs", "zl", "zp"]),
    (["c", "other"], ["cc", "cf", "cn", "co"]),
    (["p", "punctuation", "punct"], ["pd", "ps", "pe", "pc", "po", "pi", "pf"]),
    (["s", "symbol"], ["sm", "sc", "sk", "so"])]

def categorySet? (name : String) : Option CharSet :=
  match categoryGroups.find? (·.1.contains name) with
  | some group => some (category.anyOf group.2)
  | none => category.set? name

end ScopeForest.Unicode
