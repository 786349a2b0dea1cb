import ScopeForest.Unicode.Table

namespace ScopeForest.Unicode

def graphemeBreak : Enumeration where
  values :=
    [[], ["cn", "control"], ["cr"], ["ex", "extend"], ["l"], ["lf"], ["lv"], ["lvt"], ["t"],
      ["v"], ["sm", "spacingmark"], ["pp", "prepend"], ["ri", "regionalindicator"], [], [], [],
      [], ["zwj"]]
  table :=
    "BJFABBCABRAdQBbGAMBAAwVDeHAkODGAkCDbSAADAAADBAADBAADAAcDLFAJDKAABAAbTDUAPDAAdWDGLAAADFABDBAA
    DDAbGLAAADAAbDDbAAdMDKAcFDIAIDAAXDDAADIAADCAADEAbQDCAbZLBAEDIAbPDXLADbFKAAcBDAKADAAAKCDHKDDA
    KBAADGAJDBAbCDAKBAcDDAAADAKBDDABKBABKBDAAIDAAJDBAZDAABDBKAAcDDAAAKCDBADDBABDCACDAAbDDBACDAAK
    DBKAAcDDAAAKCDEAADBKAAAKBDAATDBAVDFAADAKBAcDDAAADBKADDABKBABKBDAAGDCAJDBAbDDAAcGDAKADAKBACKC
    AAKCDAAIDAAbNDAKCDAAcCDAAADCKDAADCAADDAGDBAKDBAbCDAKBAcDDAAAKADBKADAKBAADCAADDAGDBAKDBAOKAAL
    DBKBAcCDBAADAKBDDAAKCAAKCDALAAHDAAJDBAbCDAKBAcRDAADDAKBDCAADAAAKGDAARKBAcIDAAAKADGALDHAdTDAA
    AKADIAKDGAcUDBAbADAAADAAADAADKBAbWDNKADEAADBAEDKAADbJAIDAAdXDDKADFAADBKBDBAWKBDBADDCAPDDAMDA
    AAKADBAFDAAODAAdTEdRJcTIdJAnKDCAbkJDDAbBDCAbCDBAbDDBAcLDBKADGKHDAKBDKAIDAAbSDCBADAAeMDBAbHDA
    AeNDCKDDBKCADKBDAKFDCAiKDBKBDAAcEKADAKADGAADAAADAABDHKFDJABDAAbVDbTABDLATDDKAAbUDJKDDCAbLDIA
    LDBKAAbDKADDKBDFAcDDAKADBKCDAKADEAbVKHDHKBDBAfVDCAADMKADGADDAAFDAABKADBAhPDcLAuCBADARABBAXBG
    AbWBPAdRDbGAeoBDCAfKDAAdRDbFAvHDFAeADBAbsqDDDAADJAbFDBAdBDBAkLDAACDAADDAAWKBDBKAADDAAdEKBAbX
    KPDBAZDRAMDAAbLDHAYDKKADAALEbCACDCKAAbUDAKBDDKBDBKBDAAbJDAAcODFKBDBKBDBALDAAHDAKAAbTDAAbYDAA
    ADCABDBAEDBAADAAbOKADBKBAEKADAAjBKBDAKBDAKBAAKADAARGAHbAGAHbAGAHbAGAHbAGAHbAGAHbAGAHbAGAHbAG
    AHbAGAHbAGAHbAGAHbAGAHbAGAHbAGAHbAGAHbAGAHbAGAHbAGAHbAGAHbAGAHbAGAHbAGAHbAGAHbAGAHbAGAHbAGAH
    bAGAHbAGAHbAGAHbAGAHbAGAHbAGAHbAGAHbAGAHbAGAHbAGAHbAGAHbAGAHbAGAHbAGAHbAGAHbAGAHbAGAHbAGAHbA
    GAHbAGAHbAGAHbAGAHbAGAHbAGAHbAGAHbAGAHbAGAHbAGAHbAGAHbAGAHbAGAHbAGAHbAGAHbAGAHbAGAHbAGAHbAGA
    HbAGAHbAGAHbAGAHbAGAHbAGAHbAGAHbAGAHbAGAHbAGAHbAGAHbAGAHbAGAHbAGAHbAGAHbAGAHbAGAHbAGAHbAGAHb
    AGAHbAGAHbAGAHbAGAHbAGAHbAGAHbAGAHbAGAHbAGAHbAGAHbAGAHbAGAHbAGAHbAGAHbAGAHbAGAHbAGAHbAGAHbAG
    AHbAGAHbAGAHbAGAHbAGAHbAGAHbAGAHbAGAHbAGAHbAGAHbAGAHbAGAHbAGAHbAGAHbAGAHbAGAHbAGAHbAGAHbAGAH
    bAGAHbAGAHbAGAHbAGAHbAGAHbAGAHbAGAHbAGAHbAGAHbAGAHbAGAHbAGAHbAGAHbAGAHbAGAHbAGAHbAGAHbAGAHbA
    GAHbAGAHbAGAHbAGAHbAGAHbAGAHbAGAHbAGAHbAGAHbAGAHbAGAHbAGAHbAGAHbAGAHbAGAHbAGAHbAGAHbAGAHbAGA
    HbAGAHbAGAHbAGAHbAGAHbAGAHbAGAHbAGAHbAGAHbAGAHbAGAHbAGAHbAGAHbAGAHbAGAHbAGAHbAGAHbAGAHbAGAHb
    AGAHbAGAHbAGAHbAGAHbAGAHbAGAHbAGAHbAGAHbAGAHbAGAHbAGAHbAGAHbAGAHbAGAHbAGAHbAGAHbAGAHbAGAHbAG
    AHbAGAHbAGAHbAGAHbAGAHbAGAHbAGAHbAGAHbAGAHbAGAHbAGAHbAGAHbAGAHbAGAHbAGAHbAGAHbAGAHbAGAHbAGAH
    bAGAHbAGAHbAGAHbAGAHbAGAHbAGAHbAGAHbAGAHbAGAHbAGAHbAGAHbAGAHbAGAHbAGAHbAGAHbAGAHbAGAHbAGAHbA
    GAHbAGAHbAGAHbAGAHbAGAHbAGAHbAGAHbAGAHbAGAHbAGAHbAGAHbAGAHbAGAHbAGAHbAGAHbAGAHbAGAHbAGAHbAGA
    HbAGAHbAGAHbAGAHbAGAHbAGAHbAGAHbAGAHbAGAHbAGAHbAGAHbAGAHbAGAHbAGAHbAGAHbAGAHbAGAHbAGAHbAGAHb
    AGAHbAGAHbAGAHbAGAHbAGAHbAGAHbAGAHbAGAHbAGAHbAGAHbAGAHbAGAHbAGAHbAGAHbAGAHbAGAHbAGAHbAGAHbAG
    AHbAGAHbAGAHbAGAHbAGAHbAGAHbAGAHbAGAHbAGAHbAGAHbAGAHbAGAHbAGAHbAGAHbAGAHbAGAHbAGAHbAGAHbAGAH
    bAGAHbAGAHbAGAHbAGAHbAGAHbAGAHbAGAHbAGAHbAGAHbAGAHbAGAHbAGAHbAGAHbAGAHbAGAHbAGAHbAGAHbAGAHbA
    GAHbAGAHbAGAHbAGAHbAGAHbAGAHbAGAHbAGAHbAGAHbAGAHbAGAHbAGAHbAGAHbAGAHbAGAHbAGAHbAGAHbAGAHbAGA
    HbAGAHbAGAHbAGAHbAGAHbAGAHbAGAHbAGAHbAGAHbAGAHbAGAHbAGAHbAGAHbAGAHbAGAHbAGAHbAGAHbAGAHbAGAHb
    AGAHbAGAHbAGAHbAGAHbAGAHbAGAHbAGAHbAGAHbAGAHbAGAHbAGAHbAGAHbAGAHbAGAHbAGAHbAGAHbAGAHbAGAHbAG
    AHbAGAHbAGAHbAGAHbAGAHbAGAHbAGAHbAGAHbAGAHbAGAHbAGAHbAGAHbAGAHbAGAHbAGAHbAGAHbAGAHbAGAHbAGAH
    bAGAHbAGAHbAGAHbAGAHbAALJWADIbWAnhXDAAbcIDPAPDPAhYBAAgBDBAdBBLAtSDAAiRDAAfSDEAcmFDCAADBAEDDA
    bNDCADDAAgIDBAwADDAcMDEAmEDBAcYDFAcRDKAbWDDAeRKADAKAAcADOAbODAABDBAJDCKAAbSKCDDKBDBABLAADDAA
    JLAAbXDCAbJDEKADHAPKBAbRDAALDBKAAbVKCDIKADAAALBAEDDAAKADAAdNKCDCKBDDAFDAABDAAgADAKCDHAUDBKBA
    cCDBAADAKADAKDABKBABKBDAAIDAAJKBABDGACDEAcODAKBDFAADAABDAAADCKAAAKBDCLADAANDBAdDKCDHKBDCKADA
    AWDAAdCDAKBDFKADAKBDAKADBKADBAjADAKBDDABKDDBKADBAbADBAdDKCDHKBDAKADBAeBDAKADAKBDHAdWDAKADAAB
    DDKADEAjVKCDIKADBAjKDAKEAAKBABDDLAKALAKADAAfKKCDDABDBKDDAACKAAbBDJAbNDFKAAADDAHDAAIDFKBDCAbN
    LFDMKADBAhPDAKADCKADAKAAhQKADGAADFKADAAdDDVAAKADGKADBKADBAeRDFACDAAADBAADGLADAAcNKEAADBAAKBD
    AKADAAnIDBKBAIDBLAKAAbVKBDEACKBDCAWDAAhxCBPDAAFDOAqyXDLKCDCAdrZDEAcGDGAvJJAACJDAsPDAAAKcCAGD
    DAdCDAAKDBAbdaWDBAABDAgyTDbTABDWAuVDEACDFBHDHABDGAbDDDAfRDCAcyCDcCADDbXAHDAANDAAVDEAADOAcaHD
    GAADQABDGAADBAADEAdVDAAgDDGAoKDAAcIDDAtNDDAjTDBAjIDAABDAAGDBAEDAAsFDGAeEDGAdgSMZAtMDEAbsxxNB
    bFDdRBeXDjFBfiLAkyuH"

def wordBreak : Enumeration where
  values :=
    [[], ["le", "aletter"], ["fo", "format"], ["ka", "katakana"], ["ml", "midletter"],
      ["mn", "midnum"], ["nu", "numeric"], ["ex", "extendnumlet"], ["cr"], ["extend"], ["lf"],
      ["mb", "midnumlet"], ["nl", "newline"], ["ri", "regionalindicator"], ["hl", "hebrewletter"],
      ["sq", "singlequote"], ["dq", "doublequote"], [], [], [], [], ["zwj"], ["wsegspace"]]
  table :=
    "AJKAMBIAARWAAAQAADPAADFAAALAAAGJEAFAAEBZADHAAABZAJMAAbJBAABCAAGBAAAEABAAABAAEBWAABbEAABsLAFB
    bHJeHBEAABBABBDFABAAFBAEABCAABAAABTAABdEAABfIAAJGBgJAABbLABBDAABAEABbOFABAAFJbSAAJAAAJBAAJBA
    AJAAHObAADODBAEAAKGFAFFBABJKAACAACBbQJUGJAAGAFAAABBJABdUAABAJGGAAAJFBBJBAAJDBBGJBCABBAAOBBJA
    BbDJbAABBdKJKBAANGJBbGJIBBABFAAABAABJAABBVJDBAJIBAJCBAJEARBYJCADBKAEBXAABGGBAEJIBbPJXGAJbGBc
    BJCBAJRBAJGBJJBABGJAABPJCAABHABBBABBVAABGAABAACBDABJABAJGABJBABJCBAAHJAADBBAABCJBABGJBBAJBAA
    AJAABJCAABFADBBABBVAABGAABBAABBAABBABJAAAJEADJBABJCACJAAGBDAABAAGGJJBBCJAAKJCAABIAABCAABVAAB
    GAABBAABEABJABAJHAAJCAAJCABBAAOBBJBABGJAIBAJFAAJCAABHABBBABBVAABGAABBAABEABJABAJGABJBABJCAGJ
    CADBBAABCJBABGJAABAAPJABAAABFACBCAABDACBBAABAAABBACBBACBCACBLADJEACJCAAJDABBAAFJAANGJAPJEBHA
    ABCAABWAABPABJABAJGAAJCAAJDAGJBAABCAABBABBBJBABGJAPBAJCAABHAABCAABWAABJAABEABJABAJGAAJCAAJDA
    GJBAEBCAABBJBABGJAABBJAALJDBIAABCAABbOJBBAJGAAJCAAJDBAAEBCJAAGBCJBABGJAJBFAAJCAABRACBXAABIAA
    BAABBGACJAADJFAAJAAAJHAFGJABJBAcIJAABJGALJHAAGJAdIJAABJIAKJGAAGJAbLBAAWJBAFGJAKJAAAJAAAJAADJ
    BBHAABbJADJTAAJBBEJKAAJbJAIJAAdVJTAAGJALJDADJCAAJCABJGACJDAMJLAAJAGJJDABBbLAABAAEBAABBbQAABm
    UAABDABBGAABAAABDABBbOAABDABBbGAABDABBGAABAAABDABBOAABcEAABDABBcOABJCAbFBPAPBdHABBFACBxVABBQ
    WABZAEBcWACBKAGBRJDAIBSJCAKBRJBALBMAABCAAJBAcLJbFAIJAABGJAbGJCCAJAGJAFBdKAGBEJBBbHJABAAEBcRA
    JBbEAAJLADJLAJGJAeXGKAbKBWJEAcEJJAAJbCABJAGJAFGJAVJbTABJLATJEBbUJQBHACGJAQJIALJCBbDJMBBGJBbR
    JNALBbJJTAHGJACBCGJBbJABBKAEBbQABBCAPJCAAJUBDJABFJABBJCBAAEBhJJcLBkRABBFABBbLABBFABBHAABAAAB
    AAABAAABbEABBcAAABGAABAACBCAABGACBDABBFADBMAEBCAABGACWGAAWCAAJAVACBAHLBAJLAABEAMBCEHAAOHBACF
    AAOHAAJWACEAACJAABAAMBAAPBMAbYJbGAQBAADBAABBJAABAACBEAFBAAABAAABAAABDAABKABBDAEBEADBAAQBbOAb
    fGBbZAcrTBiUAFBDJCBBALBbLAABAAEBAABBcDAGBAAOJABWAIBGAABGAABGAABGAABGAABGAABGAABGAAJbFAbUBAAr
    VWAADBAAbJJFAADEAEBBAdNJBDBACDdMAADDAEBbQAABdPAQBbFAbVDPAhZDbUAADdJAbpdVBbsUAcOBbTABBkIACBPG
    JBBATBbUJDAAJJAABbEJBBdBJBAVBiEATBQJABCJABDJABWJEADJAASBbZALJBBbXJRAJGJAFJRBFACBAAABBJAGJBbB
    JHABBWJMALBbCACJDBbUJNANBAGJAKJAAJGJAFBbOJNAIBCJABHJBABGJAbGJCAbXJAAAJCABJBAEJBAAJAAbDBKJEAB
    BCJBAJBFABBFABBFAIBGAABGAABcFAFBeKJHAAJBABGJAFBqnRALBWADBbWAngTBGALBEAEOAJAOJAAOMAAOEAAOAAAO
    BAAOBAAOJBdTAbGBnYARBcLABBcBAbNBLADJPACEAALJPACHBAXHCFAAALAAAFAEAAZBEAABfEABCAAGLAADFAAALAAA
    GJEAFAAEBZADHAAABZAKDcDJBBbEACBFABBFABBFABBCAbBCCADBLAABZAABSAABBAABOABBNAbHBeSAcQBcAAfFJAAe
    ZBbCACBbWAOJAAbEBbFAMBbDAEBbLJEAEBbDABBbJADBHAABEAbPBgBABGJAFBbJADBbJADBbNAHBbZALBKAABOAABGA
    ABBAABKAABOAABGAABBACBbZALBlYAIBVAJBHAXBFAABbPAABIAcQBFABBAAABbRAABBACBAABBWAJBWAIBbEAcMBSAA
    BBAJBVAJBZAFBZAbLBcDAFBBAcLBAJCAAJBAEJDBDAABCAABbCABJCADJAAbFBbCACBbCAbIBHAABbBJBAYBcBAJBVAJ
    BSAMBRAeFBcUAcCBbYAMBbYAMBbJJDAHGJAFGJBbBACJEAABWAjPBbPAAJBACBBAPBFAbXJFBbCAJBAAHBVJKAbEBRJD
    AbPBUAbABWAIJCBcAJOAbEGJJABBJBBAAIJDBbSJKABGAADJAAJGAABBYAGGJAFJCBbJJNAAGJADBAJBBAAHBbIJAABB
    AAIJCBbVJNBDADJDAAJBGJBAAABAAbIBRAABYJLAFJABBJAAcJBGAABAAABDAABOAABJAGBbUJLAEGJAFJDAABHABBBA
    BBVAABGAABBAABEAAJBBAJGABJBABJCABBAAFJAAEBEJBABJGACJEAKBJAABAABBAAABbLAABAJIAAJAABJAAAJDAAJE
    BAJABAAMJBAbCBcAJRBDAEGJADJABCAbDBbVJTBBAABAAHGJAgJBbUJGABJIAWBDJBAbHBbVJQACBAAKGJAbLBbQJMBA
    AGGJAFGTAcEJOADGJAhPBbRJOAdWBcLGJAUBHABBAABBHAABBAABXJFAAJBABJDBAJABAJBALGJAcRBHABBbMJGABJGB
    AAABAJAAbABAJJBbNJGBAJDAHJAAHBAJKBbTJPACBAARBcUAdYJHAdJBbGAOGJAFBIAABbKJHAAJHBAAOGJAXBbDABJV
    AAJNAcUBGAABBAABbLJFACJAAAJBAAJGBAJAAHGJAFBFAABBAABbFJEAAJBAAJEBAAGGJAFBbRADGJAjLBSJDAIJBBAJ
    ABMAABbHJGACJEAMGJJAAdGBAAdABbjLAdXBeGAQBhNAdxJBdSAOBbpFCPJABFJOAJBfxQAEBwKAkdCBbDJRGJAcoRBv
    WAGBbEAAGJAFBdAAAGJAFBbDABJEAKBbVJGAIBDALGJAIBUAEBSAqPBbSACGJAhPBcLAbFBYABBYAbRBcWADJABAJcCA
    GJDBMAcLBBAABAJAAKJBAygBDDAADGAADBAADAAlADCAbXDAANDDAeaHBeCAEBMACBIAGBJACJBAACDAgeLGJAtXJbTA
    BJWAuVJEACJFCHJHABJGAbDJDAfRJCArABdGAABcSAABBABBAABBBABBDAABLAABAAABGAABcMAABDABBHAABGAABbBA
    ABDAABEAABAACBGAABnBABBYAABYAABbEAABYAABbEAABYAABbEAABYAABbEAABYAABHABGbXAtRJcCADJbXAHJAANJA
    AVJEAAJOAbqLBbEAFBFAiEJGAAJQABJGAAJBAAJEAEBcJAbGJAAeHBbSACJGBGABGJADBAAmIBbDJAAQBbRJDGJAsBBb
    BJDGJAiFBbDJBBAGJAhOBbEAABCJABBJABGJBBEJAAHBBAiPBGAABDAABBAABOAABhOAKJGAbOBcPJGBAADGJAbtTBDA
    ABbAAABBAABAABBAAABJAABDAABAAABAAFBAADBAAABAAABAAABCAABBAABAABBAAABAAABAAABAAABAAABBAABAABBD
    AABGAABDAABDAABAAABJAABQAEBCAABEAABQAyDBZAFBZAFBZAdNNZAtMJEAdaDGJAbsuxACAAbDJdRAeXJjFAlecT"

def sentenceBreak : Enumeration where
  values :=
    [[], ["at", "aterm"], ["cl", "close"], ["fo", "format"], ["lo", "lower"], ["nu", "numeric"],
      ["le", "oletter"], ["se", "sep"], ["sp"], ["st", "sterm"], ["up", "upper"], ["cr"],
      ["ex", "extend"], ["lf"], ["sc", "scontinue"]]
  table :=
    "AIIANAIBLAARIAJACAADCCABOBBAAAFJOBACJAAAKZCAAACAACEZCAAACAAGHAAZIAAIEACAAADAAGEAADEACAADKWAA
    KGEXAAEHKAEAKAEAKAEAKAEAKAEAKAEAKAEAKAEAKAEAKAEAKAEAKAEAKAEAKAEAKAEAKAEAKAEAKAEAKAEAKAEAKAEA
    KAEAKAEAKAEAKAEAKAEAKAEAKAEBKAEAKAEAKAEAKAEAKAEAKAEAKAEAKAEBKAEAKAEAKAEAKAEAKAEAKAEAKAEAKAEA
    KAEAKAEAKAEAKAEAKAEAKAEAKAEAKAEAKAEAKAEAKAEAKAEAKAEAKAEAKAEAKBEAKAEAKAECKBEAKAEAKBEAKCEBKDEA
    KBEAKCECKBEAKBEAKAEAKAEAKBEAKAEBKAEAKBEAKCEAKAEAKBEBGAKAECGDKBEAKBEAKBEAKAEAKAEAKAEAKAEAKAEA
    KAEAKAEAKAEBKAEAKAEAKAEAKAEAKAEAKAEAKAEAKAEAKAEBKBEAKAEAKCEAKAEAKAEAKAEAKAEAKAEAKAEAKAEAKAEA
    KAEAKAEAKAEAKAEAKAEAKAEAKAEAKAEAKAEAKAEAKAEAKAEAKAEAKAEAKAEAKAEAKAEAKAEAKAEAKAEAKAEGKBEAKBEB
    KAEAKDEAKAEAKAEAKAEAKAEcQGBEbIGGEBADGLANEEAGGAAAGAAQMeHKAEAKAEAGAAAKAEAABEDOAKAAFKAAAKCAAKAA
    AKBEAKQAAKIEbIKAEBKCECKAEAKAEAKAEAKAEAKAEAKAEAKAEAKAEAKAEAKAEAKAEAKAEEKAEAAAKAEAKBEBKbYEbVKA
    EAKAEAKAEAKAEAKAEAKAEAKAEAKAEAKAEAKAEAKAEAKAEAKAEAKAEAKAEAKAEAKAEAAAMGKAEAKAEAKAEAKAEAKAEAKA
    EAKAEAKAEAKAEAKAEAKAEAKAEAKAEAKAEAKAEAKAEAKAEAKAEAKAEAKAEAKAEAKAEAKAEAKAEAKAEAKAEAKAEAKBEAKA
    EAKAEAKAEAKAEAKAEAKAEBKAEAKAEAKAEAKAEAKAEAKAEAKAEAKAEAKAEAKAEAKAEAKAEAKAEAKAEAKAEAKAEAKAEAKA
    EAKAEAKAEAKAEAKAEAKAEAKAEAKAEAKAEAKAEAKAEAKAEAKAEAKAEAKAEAKAEAKAEAKAEAKAEAKAEAKAEAKAEAKAEAKA
    EAKAEAKAEAKAEAKAEAKAEAKAEAKAEAAAKbLABGAACOAABEbOJAAGMbSAAMAAAMBAAMBAAMAAHGbAADGEALFFAFOBABMK
    AADAJCGbQMUFJAAFBAAGBMAGdUJAGAMGFAAAMFGBMBAAMDGBFJGCABGAJCALDAGAMAGbDMbAABGdKMKGAANFJGbGMIGB
    ABOAJAGAABMAABGVMDGAMIGAMCGAMEAIJAAAJAACJBAAGYMCADGKAEGXAAGGFBAEMIGbPMXFAMbGGcBMCGAMRGAMGGJM
    BJBFJAAGPMCAAGHABGBABGVAAGGAAGAACGDABMAGAMGABMBABMCGAAHMAADGBAAGCMBABFJGBAJGAAAMAABMCAAGFADG
    BABGVAAGGAAGBAAGBAAGBABMAAAMEADMBABMCACMAAGGDAAGAAGFJMBGCMAAKMCAAGIAAGCAAGVAAGGAAGBAAGEABMAG
    AMHAAMCAAMCABGAAOGBMBABFJAIGAMFAAMCAAGHABGBABGVAAGGAAGBAAGEABMAGAMGABMBABMCAGMCADGBAAGCMBABF
    JAAGAAPMAGAAAGFACGCAAGDACGBAAGAAAGBACGBACGCACGLADMEACMCAAMDABGAAFMAANFJAPMEGHAAGCAAGWAAGPABM
    AGAMGAAMCAAMDAGMBAAGCAAGBABGBMBABFJAPGAMCAAGHAAGCAAGWAAGJAAGEABMAGAMGAAMCAAMDAGMBAEGCAAGBMBA
    BFJAAGBMAALMDGIAAGCAAGbOMBGAMGAAMCAAMDGAAEGCMAAGGCMBABFJAJGFAAMCAAGRACGXAAGIAAGAABGGACMAADMF
    AAMAAAMHAFFJABMBAMGbVMAGBMGAEGGMHAAFJAbMGBAAGAAAGEAAGXAAGAAAGJMAGBMIGAABGEAAGAAAMGAAFJABGDAb
    FGAAWMBAFFJAKMAAAMAAAMACDMBGHAAGbJADMTAAMBGEMKAAMbJAIMAAcEGbQMTGAFJJBADGFMDGDMCGAMCGBMGGCMDG
    MMLGAMAFJMDABKbLAAKAAEKAABGbQAAEAGmTAAGDABGGAAGAAAGDABGbOAAGDABGbGAAGDABGGAAGAAAGDABGOAAGcEA
    AGDABGcOABMCABJAADJBAWGPAPKdHABEFACGxVAAJAGQIAGZCBACGcWACGKAGGRMDAIGSMCJBAIGRMBALGMAAGCAAMBA
    LGbZMbFJBAAGAADGAMAABFJAXOAJAADOAJAAAMCDAMAFJAFGdKAGGEMBGbHMAGAAEGcRAJGbEAAMLADMLAHJBFJGbDAB
    GEAKGbRADGZAFFKAbKGWMEADGcAMJAAMbCABMAFJAFFJAMGAJDADMbTABMLATMEGbUMQGHAAJBFJJBABJBAKMIAIJCMC
    GbDMMGBFJGbRMNALGbJMTACJBACFJACGCFJGbJJBEIKAEAAEGbQABGCAPMCAAMUGDMAGFMAGBMCGAAEEhJMcLKAEAKAE
    AKAEAKAEAKAEAKAEAKAEAKAEAKAEAKAEAKAEAKAEAKAEAKAEAKAEAKAEAKAEAKAEAKAEAKAEAKAEAKAEAKAEAKAEAKAE
    AKAEAKAEAKAEAKAEAKAEAKAEAKAEAKAEAKAEAKAEAKAEAKAEAKAEAKAEAKAEAKAEAKAEAKAEAKAEAKAEAKAEAKAEAKAE
    AKAEAKAEAKAEAKAEAKAEAKAEAKAEAKAEAKAEAKAEAKAEAKAEAKAEAKAEAKAEAKAEAKAEAKAEAKAEAKAEAKAEAKAEAKAE
    AKAEAKAEAKAEAKAEIKAEAKAEAKAEAKAEAKAEAKAEAKAEAKAEAKAEAKAEAKAEAKAEAKAEAKAEAKAEAKAEAKAEAKAEAKAE
    AKAEAKAEAKAEAKAEAKAEAKAEAKAEAKAEAKAEAKAEAKAEAKAEAKAEAKAEAKAEAKAEAKAEAKAEAKAEAKAEAKAEAKAEAKAE
    AKAEAKAEAKAEAKAEAKAEAKAEAKAEIKHEFABKFABEHKHEHKHEFABKFABEHAAKAAAKAAAKAAAKAEHKHENABEHKHEHKHEHK
    HEEAAEBKEAAEAACECAAEBKEACEDABEBKDADEHKEAEECAAEBKEACIKDAMBDBACOBACCHADBAACHBDEIAAICBAAJBAGCBJ
    CAUIADEAADJAAEAAKCBEAAMCBAAEMAbYMbGAQKAADKAABEAKCEBKCEAAAKAACKEAFKAAAKAAAKAAAKDAAEAKDEAGDEAA
    BEBKBAEKAEDADEAAQKPEPGCKAEAGDAoSCDAbCCBApEKZEZAyACFAGCNAdACBAbECJApMCVAcKCDAbFCBAtTKbVEbVKAE
    AKCEBKAEAKAEAKAEAKDEAKAEBKAEHKCEAKAEAKAEAKAEAKAEAKAEAKAEAKAEAKAEAKAEAKAEAKAEAKAEAKAEAKAEAKAE
    AKAEAKAEAKAEAKAEAKAEAKAEAKAEAKAEAKAEAKAEAKAEAKAEAKAEAKAEAKAEAKAEAKAEAKAEAKAEAKAEAKAEAKAEAKAE
    AKAEAKAEAKAEAKAEAKAEAKAEAKAEAKAEAKAEAKAEAKAEBAFKAEAKAEAMCKAEAAEJCADEbLAAEAAEEAABGcDAGGAAOMAG
    WAIGGAAGGAAGGAAGGAAGGAAGGAAGGAAGGAAMbFCNANCBABCJADJAGAALJAAECAAPJBCHAqCIAOAJAABGCCJABCHAACCA
    AGIMFAAGEABGEADGdHABMBABGCAAGdLAAGDAEGbQAAGdPAQGbFAbVGPAtRGjtNAcLGbguEAcOGbTAAJAGkIAAJBGPFJG
    BATKAEAKAEAKAEAKAEAKAEAKAEAKAEAKAEAKAEAKAEAKAEAKAEAKAEAKAEAKAEAKAEAKAEAKAEAKAEAKAEAKAEAKAEAK
    AEAGAMDAAMJAAGAKAEAKAEAKAEAKAEAKAEAKAEAKAEAKAEAKAEAKAEAKAEAKAEAKAEAKAECMBGdBMBAAJAACJAAbEGIA
    BKAEAKAEAKAEAKAEAKAEAKAEAKAECKAEAKAEAKAEAKAEAKAEAKAEAKAEAKAEAKAEAKAEAKAEAKAEAKAEAKAEAKAEAKAE
    AKAEAKAEAKAEAKAEAKAEAKAEAKAEAKAEAKAEAKAEAKAEAKAEAKAEAKAEAKAEJKAEAKAEAKBEAKAEAKAEAKAEAKAEAGAA
    BKAEAKAEAGAKAEAKAECKAEAKAEAKAEAKAEAKAEAKAEAKAEAKAEAKAEAKAEAKEEAKEEAKAEAKAEAKAEAKAEAKAEAKAEAK
    AEAKDEAKAEAKBEAKAEAKAEAKAEAKAEAKAEAKAEAKAEAKAATEDKAEAGAECGGMAGCMAGDMAGWMEADMAASGbZABJBAHMBGb
    XMRAHJBFJAFMRGFACGAAAGBMAFJGbBMHAAJAGWMMALGbCACMDGbUMNAGJBAEGAFJAFGEMAGJFJGEAAGbOMNAIGCMAGHM
    BABFJACJCGWACGAMCGbXMAGAMCGBMBGEMBGAMAGAAXGCABGKMEJBGCMBAJGFABGFABGFAIGGAAGGAAEbQAAENAFEdBGb
    IMHJAMBABFJAFGqnRALGWADGbWAmnBGoBABGeBAbLEGALEEAEGAMAGJAAGMAAGEAAGAAAGBAAGBAAGeDAbGGnYCBAPGc
    LABGcBAbNGLADMPOBJAOBJBCBAGMPAAOBABCPABCBAGOBBAAAOBJBOACFADOAALGEAAGfEABDAAAJAAFCBABOBBAAAFJ
    OBACJAAAKZCAAACAACEZCAAACAAACBJACBOAAAGcDMBGbEACGFABGFABGFABGCAbBDCADGLAAGZAAGSAAGBAAGOABGNA
    bHGeSAcQGcAAfFMAAeZGbCACGbWAOMAAbEGbFAMGbDAEGbLMEAEGbDABGbJADGHAAGEAbPKbNEbNGcZABFJAFKbJADEb
    JADGbNAHGbZALKKAAKOAAKGAAKBAAEKAAEOAAEGAAEBACGbZALGlYAIGVAJGHAXEAGBECAAEbPAAEIAcQGFABGAAAGbR
    AAGBACGAABGWAJGWAIGbEAcMGSAAGBAJGVAJGZAFGZAbLGcDAFGBAcLGAMCAAMBAEMDGDAAGCAAGbCABMCADMAAVJBAH
    GbCACGbCAbIGHAAGbBMBAYGcBAJGVAJGSAMGRAeFGcUAcCKbYAMEbYAMGbJMDAHFJAFFJGFKVACMEAAGAEVAjPGbPAAM
    BACGBAPGFAbXMFGbCAJGAAHGVMKADJEAVGRMDJDAbLGUAbAGWAIMCGcAMOJBAbCFJMAGBMBGAAIMDGbSMKABFAJDMAAJ
    FAABGYAGFJAFMCGbJMNAAFJAAJCGAMBGAAHGbIMAABGAAIMCGbVMNGDJBABMDJAMBFJGAAAGAAAJBAbFGRAAGYMLJBAA
    JBAAMAGBMAAcJGGAAGAAAGDAAGOAAGJJAAFGbUMLAEFJAFMDAAGHABGBABGVAAGGAAGBAAGEAAMBGAMGABMBABMCABGA
    AFMAAEGEMBABMGACMEAKGJAAGAABGAAAGbLAAGAMIAAMAABMAAAMDAAMEGAMAGAJBAKMBAbCGcAMRGDJBACFJADMAGCA
    bDGbVMTGBAAGAAHFJAgJGbUMGABMIAAJBAEJOGDMBAbHGbVMQJBAAGAAKFJAbLGbQMMGAAGFJAFFTAbBGbAABMOADFJA
    BJCAAGGAhCGbRMOAdWKbFEbFFJAUGHABGAABGHAAGBAAGXMFAAMBABMDGAMAGAMBJAAAJAAIFJAcRGHABGbMMGABMGGA
    AAGAMAAbAGAMJGbNMGGAMDACJBACMAAHGAMKGbTMPAAJBGAARGcUAdYMHAdJGbGAOFJAFGIAAGbKMHAAMHGAJBAMFJAX
    GbDABMVAAMNAcUGGAAGBAAGbLMFACMAAAMBAAMGGAMAAHFJAFGFAAGBAAGbFMEAAMBAAMEGAAGFJAFGbRADFJAjLGSMD
    JBAGMBGAMAGMAAGbHMGACMEJBAKFJMAAdGGAAdAGbjLAdXGeGAQGhNAdxJGdSAOGbpFDPMAGFMOAJGfxQAEGwKAkdCGb
    DMRFJAcoRGvWAGGbEAAFJADJBGdAAAFJAFGbDABMEJAAJGbVMGJBAGGDJAAKFJAIGUAEGSAqPGbSAAJBFJAhPKbFEbFA
    XJAAGKYABEYAbRGcWADMAGAMcCAGMDGMAcLGBAAGAMAAKMBGEAIGkxXAbOGbFAdSGeKAmwQGDAAGGAAGBAAGlEAOGAAb
    CGCABGAANGDAHGpFAdkTGeCAEGMACGIAGGJACMBJADDAgeLFJAtXMbTABMWAuVMEACMFDHMHABMGAbDMDAfRMCArAKZE
    ZKZEGAAERKZEZKAAAKBABKAABKBABKDAAKHEDAAEAAAEGAAEKKZEZKBAAKDABKHAAKGAAEZKBAAKDAAKEAAKAACKGAAE
    ZKZEZKZEZKZEZKZEZKZEZKZEbBABKYAAEYAAEFKYAAEYAAEFKYAAEYAAEFKYAAEYAAEFKYAAEYAAEFKAEAABFbXAtRMc
    CADMbXAHMAANMAACJAARMEAAMOAbqLEJGAETAFEFAiEMGAAMQABMGAAMBAAMEAEEcJAbGMAAeHGbSACMGGGABFJADGAA
    mIGbDMAAQGbRMDFJAsBGbBMDFJAiFGbDMBGAFJAhOGbEAAGCMAGBMAGGMBGEMAAHGBAiPGGAAGDAAGBAAGOAAGhOAKMG
    AbOKbHEbHMGGAADFJAbtTGDAAGbAAAGBAAGAABGAAAGJAAGDAAGAAAGAAFGAADGAAAGAAAGAAAGCAAGBAAGAABGAAAGA
    AAGAAAGAAAGAAAGBAAGAABGDAAGGAAGDAAGDAAGAAAGJAAGQAEGCAAGEAAGQAyDKZAFKZAFKZAbwLCCAcbUFJAbnPGcl
    fBAbFGgmNABGioBABGlbKAOGxXAdqVGuVAcfXGhhYAEGmoNAbogoCDAAbDMdRAeXMjFAlecT"

end ScopeForest.Unicode
