import ScopeForest.Unicode.Table

namespace ScopeForest.Unicode

def script : Enumeration where
  values :=
    [["zyyy", "common"], ["zinh", "inherited", "qaai"], ["arab", "arabic"], ["armn", "armenian"],
      ["beng", "bengali"], ["bopo", "bopomofo"], ["cher", "cherokee"], ["copt", "coptic", "qaac"],
      ["cyrl", "cyrillic"], ["dsrt", "deseret"], ["deva", "devanagari"], ["ethi", "ethiopic"],
      ["geor", "georgian"], ["goth", "gothic"], ["grek", "greek"], ["gujr", "gujarati"],
      ["guru", "gurmukhi"], ["hani", "han"], ["hang", "hangul"], ["hebr", "hebrew"],
      ["hira", "hiragana"], ["knda", "kannada"], ["kana", "katakana"], ["khmr", "khmer"],
      ["laoo", "lao"], ["latn", "latin"], ["mlym", "malayalam"], ["mong", "mongolian"],
      ["mymr", "myanmar"], ["ogam", "ogham"], ["ital", "olditalic"], ["orya", "oriya"],
      ["runr", "runic"], ["sinh", "sinhala"], ["syrc", "syriac"], ["taml", "tamil"],
      ["telu", "telugu"], ["thaa", "thaana"], ["thai"], ["tibt", "tibetan"],
      ["cans", "canadianaboriginal"], ["yiii", "yi"], ["tglg", "tagalog"], ["hano", "hanunoo"],
      ["buhd", "buhid"], ["tagb", "tagbanwa"], ["brai", "braille"], ["cprt", "cypriot"],
      ["limb", "limbu"], ["linb", "linearb"], ["osma", "osmanya"], ["shaw", "shavian"],
      ["tale", "taile"], ["ugar", "ugaritic"], ["bugi", "buginese"], ["glag", "glagolitic"],
      ["khar", "kharoshthi"], ["sylo", "sylotinagri"], ["talu", "newtailue"],
      ["tfng", "tifinagh"], ["xpeo", "oldpersian"], ["bali", "balinese"], ["batk", "batak"],
      ["brah", "brahmi"], ["cham"], ["egyp", "egyptianhieroglyphs"], ["hmng", "pahawhhmong"],
      ["hung", "oldhungarian"], ["java", "javanese"], ["kali", "kayahli"], ["lepc", "lepcha"],
      ["lina", "lineara"], ["mand", "mandaic"], ["mero", "meroitichieroglyphs"], ["nkoo", "nko"],
      ["orkh", "oldturkic"], ["perm", "oldpermic"], ["phag", "phagspa"], ["phnx", "phoenician"],
      ["plrd", "miao"], ["vaii", "vai"], ["xsux", "cuneiform"], [], ["cari", "carian"],
      ["lana", "taitham"], ["lyci", "lycian"], ["lydi", "lydian"], ["olck", "olchiki"],
      ["rjng", "rejang"], ["saur", "saurashtra"], ["sgnw", "signwriting"], ["sund", "sundanese"],
      ["mtei", "meeteimayek"], ["armi", "imperialaramaic"], ["avst", "avestan"],
      ["cakm", "chakma"], ["kthi", "kaithi"], ["mani", "manichaean"],
      ["phli", "inscriptionalpahlavi"], ["phlp", "psalterpahlavi"],
      ["prti", "inscriptionalparthian"], ["samr", "samaritan"], ["tavt", "taiviet"],
      ["bamu", "bamum"], ["lisu"], ["sarb", "oldsoutharabian"], ["bass", "bassavah"],
      ["dupl", "duployan"], ["elba", "elbasan"], ["gran", "grantha"], ["mend", "mendekikakui"],
      ["merc", "meroiticcursive"], ["narb", "oldnortharabian"], ["nbat", "nabataean"],
      ["palm", "palmyrene"], ["sind", "khudawadi"], ["wara", "warangciti"], ["mroo", "mro"],
      ["nshu", "nushu"], ["shrd", "sharada"], ["sora", "sorasompeng"], ["takr", "takri"],
      ["tang", "tangut"], ["hluw", "anatolianhieroglyphs"], ["khoj", "khojki"],
      ["tirh", "tirhuta"], ["aghb", "caucasianalbanian"], ["mahj", "mahajani"], ["ahom"],
      ["hatr", "hatran"], ["modi"], ["mult", "multani"], ["pauc", "paucinhau"],
      ["sidd", "siddham"], ["adlm", "adlam"], ["bhks", "bhaiksuki"], ["marc", "marchen"],
      ["newa"], ["osge", "osage"], ["gonm", "masaramgondi"], ["soyo", "soyombo"],
      ["zanb", "zanabazarsquare"], ["dogr", "dogra"], ["gong", "gunjalagondi"],
      ["maka", "makasar"], ["medf", "medefaidrin"], ["rohg", "hanifirohingya"],
      ["sogd", "sogdian"], ["sogo", "oldsogdian"], ["elym", "elymaic"],
      ["hmnp", "nyiakengpuachuehmong"], ["nand", "nandinagari"], ["wcho", "wancho"],
      ["chrs", "chorasmian"], ["diak", "divesakuru"], ["kits", "khitansmallscript"],
      ["yezi", "yezidi"], ["cpmn", "cyprominoan"], ["ougr", "olduyghur"], ["tnsa", "tangsa"],
      ["toto"], ["vith", "vithkuqi"], ["kawi"], ["nagm", "nagmundari"], ["gara", "garay"],
      ["gukh", "gurungkhema"], ["krai", "kiratrai"], ["onao", "olonal"], ["sunu", "sunuwar"],
      ["todr", "todhri"], ["tutg", "tulutigalari"], ["berf", "beriaerfe"], ["sidt", "sidetic"],
      ["tayo", "taiyo"], ["tols", "tolongsiki"]]
  table :=
    "AcMZZAFZZAbUZAAOZAAEZWAAZbEAAZrGAbMZEAEFBATBeHODAAOCdEBODAAOAdEDOAAAOAAAOCdEAOAdEAOTdEAOcKHN
    OPIfCBBIgMdEADbLdEBDbXdEBDCdEATcCdEHTbAdEDTFdEKCEAACFAACNAACCAACbFAACJBKCZBACeDAACbHbINdEAbI
    cHdEBbICCbVbLbXdENcWcGdEBcWCdXbTdEBdXOdEAcUbBdEBcUAdEAbIKdEECbHdEECcWAACbCKdCBDKOABKZEDdEAEH
    dEBEBdEBEVdEAEGdEAEAdECEDdEBEIdEBEBdEBEDdEHEAdEDEBdEAEEdEBEYdEBQCdEAQFdEDQBdEBQVdEAQGdEAQBdE
    AQBdEAQBdEBQAdEAQEdEDQBdEBQCdECQAdEGQDdEAQAdEGQQdEJPCdEAPIdEAPCdEAPVdEAPGdEAPBdEAPEdEBPJdEAP
    CdEAPCdEBPAdEOPDdEBPLdEGPGdEAbFCdEAbFHdEBbFBdEBbFVdEAbFGdEAbFBdEAbFEdEBbFIdEBbFBdEBbFCdEGbFC
    dEDbFBdEAbFEdEBbFRdEJbJBdEAbJFdECbJCdEAbJDdECbJBdEAbJAdEAbJBdECbJBdECbJCdECbJLdEDbJEdECbJCdE
    AbJDdEBbJAdEFbJAdENbJUdEEbKMdEAbKCdEAbKWdEAbKPdEBbKIdEAbKCdEAbKDdEGbKBdEAbKCdEAbKBdEBbKDdEBb
    KJdEGbKIVMdEAVCdEAVWdEAVJdEAVEdEBVIdEAVCdEAVDdEGVBdEEVCdEAVDdEBVJdEAVCdELbAMdEAbACdEAbAbYdEA
    bACdEAbAFdEDbAPdEBbAZdEAbHCdEAbHRdECbHXdEAbHIdEAbHAdEBbHGdECbHAdEDbHFdEAbHAdEAbHHdEFbHJdEBbH
    CdELbMcFdEDAAbMbBdEbKYBdEAYAdEAYEdEAYXdEAYAdEAYWdEBYEdEAYAdEAYGdEAYJdEBYDdEbFbNcTdEAbNbJdEDb
    NbMdEAbNbJdEAbNOdEAbNGADbNBdEbKbCgDMbLdEAMAdEEMAdEBMbQAAMDSjVLcUdEALDdEBLGdEALAdEALDdEBLbOdE
    ALDdEBLbGdEALDdEBLGdEALAdEALDdEBLOdEALcEdEALDdEBLcOdEBLbFdECLZdEFGdHdEBGFdEBbOyPbDbCdECbGcWA
    CbGKdEGbQVdEIbQAbRUABdEIbSTdELbTMdEAbTCdEAbTBdELXdPdEBXJdEFXJdEFbBBABbBAAAbBTdEFbBdKdEGbBbQd
    EEbOcRdEJbWbEdEAbWLdEDbWLdEDbWAdECbWLcAbDdEBcAEdEKcGbRdEDcGZdEFcGKdECcGBXbFcCbBdEBcCBdGcKdEA
    dGbCdEBdGKdEFdGJdEFdGNdEBBbTdEBBLdETcJcYdEAcJbXdNcLcKbZdEHcKDcScDdECcSOdECcSCdJbVIKdEEMbQdEB
    MCdNHdEHBCAABMAABGADBAAFBAACBBAAdEEZbLOEIAZbWOEZDOEZMIAZcROABcLZjVOVdEBOFdEBObLdEBOFdEBOHdEA
    OAdEAOAdEAOAdEAObEdEBOcAdEAOOdEAONdEBOFdEAOSdEBOCdEAOIdEAALBBAdIdEAAKZAdEBAKZAAOdEAZMdECAbHd
    ENBbGdEOAbLOAACZBAFZAAbAZAAQZbOACdEDAzPdEVAKdEUAbjRbUjVAyDdEBAfHcDdRZbFHeLdEEHGMbLdEAMAdEEMA
    dEBcHcDdEGcHBdENcHALWdEILGdEALGdEALGdEALGdEALGdEALGdEALGdEALGdEAIbFAdPdEbHRZdEARdKdELRiFdEZA
    URAAARAAYRIBDSBAHRDADdEAUdHdEBBBABUCAAWdLABWCdEEFbQdEASdPdEAAPFbFAbLdEIAAWPSbEdEAAcLSbEAdCWb
    UAAWdJAgLRjtNAcLRbfbJbPbsUdECbPcCdEIeAbVdClNdETIdRdZdJdEHAbHZdXACZdDdETZOcFbSdECAJdEFcZcDdEH
    dLcRdEHdLLdEFKbFcRbTAAcRAdKbJdEKdKASbCdECcQcZdEAAAcQJdEDcQBbCbEdEAcMcCdEIcMNdEBcMJdEBcMDbCbF
    dYcOdEXdYEdOWdEJLFdEBLFdEBLFdEILGdEALGdEAZbQAAZIOAZDABdEDGdBdObTdEBdOJdEFSqnRdELSWdEDSbWdEmn
    BRoBdEBReBdEbLZGdELDEdEETZdEATEdEATAdEATBdEATBdEATJCsZABCfNdEbFCPBPAJdEFBNIBAbIdEAASdEAADdED
    CEdEACfEdEBAAdEAAbFZZAFZZAKWJAAWbSABSbEdECSFdEBSFdEBSFdEBSCdECAGdEAAGdEJAEdEBbXLdEAbXZdEAbXS
    dEAbXBdEAbXOdEBbXNdEbHbXeSdEEACdEDAbSdECAIOdAdEAAMdECOAdEbUAbSBAdEeZdHbCdECdFbWdEOBAAbAdEDbE
    bJdEIbECNbAdEEcYbQdEEcBbDdEAcBAcIbJdEDcINdEbPJdBbZbVbYbDdEBbYJdEFfIbJdEDfIbJdEDeEbNdEHeWbZdE
    KeWAgFKdEAgFOdEAgFGdEAgFBdEAgFKdEAgFOdEAgFGdEAgFBdECgNbZdELcTlYdEIcTVdEJcTHdEXZFdEAZbPdEAZId
    EcQbVFdEBbVAdEAbVbRdEAbVBdECbVAdEBbVAdPVdEAdPIeKbFeJbEdEHeJIdEbVeZSdEAeZBdEEeZEdAbBdECdAAdIZ
    dEEdIAgQZdEbLcVbFeHXdEDeHTdEBeHbTcEDdEAcEBdEEcEHdEAcECdEAcEbCdEBcECdEDcEJdEGcEIdEGeBbFeIbFdE
    bFdTbMdEDdTLdEIdQcBdECdQGdWVdEBdWHdUSdEEdUHdVRdEGdVDdELdVGdEdBcXcUdEcCcPbYdEMcPbYdEGcPFfQbNd
    EHfQJdEFgIbLdECgIbCdEHgIBdEhZCbEdEAgAbPdEAgACdEBgABdEPCFdEHCIdEbGCFfSbNdEHfRbPdEVgCZdEbLfXbB
    dETfTWdEIcLcZdEDcLbJdEIcLAdScOdEJdSAdEBeQYdEGeQJdEFdRcAdEAdRRdEHeXbMdEIePdRdEAbHTdEKeURdEAeU
    bUdEcJfBGdEAfBAdEAfBDdEAfBOdEAfBKdEFeLcGdEEeLJdEFeFDdEAeFHdEBeFBdEBeFVdEAeFGdEAeFBdEAeFEdEAB
    AeFIdEBeFBdEBeFCdEBeFAdEFeFAdEEeFGdEBeFGdECeFEdEKgOJdEAgOAdEBgOAdEAgObLdEAgOJdEAgOAdEBgOAdEA
    gODdEAgOJdEAgOBdEHgOBdEbCfHdNdEAfHEdEbDeVcTdEHeVJdEgJfDcBdEBfDbLdEbHfAcQdEKfAJdEFbBMdESeRcFd
    EFeRJdEFbCTdEbBeYbAdEBeYOdEDeYWdEhCfMcHdEdVeMdEdELeMAfYGdEBfYAdEBfYHdEAfYBdEAfYbDdEAfYBdEBfY
    LdEIfYJdEcRfVHdEBfVbTdEBfVKdEbAfLcTdEHfKdEdEMbOPfCcEdEGKJdEdHePHdEdJgMbHdENgMJdEFfFIdEAfFbSd
    EAfFNdEJfFbCdECfGbFdEBfGVdEAfGNdEcUfJGdEAfJBdEAfJbRdECfJAdEAfJBdEAfJIdEHfJJdEFfNFdEAfNBdEAfN
    bKdEAfNBdEAfNFdEGfNJdEFgSbRdEDgSJdEjLfOYdEGgGQdEAgGbOdECgGbCdEdGeAAdEObJbXdEMbJAdDbjLdEdXdDe
    GdEAdDEdEKdDhNdEdxJgBdUdEMcNbqRdEJcNfxQdEEeTwKdEkdCgJcFdEcoRdZvWdEGeNbEdEAeNJdEDeNBgDdAdEAgD
    JdEFeCbDdEBeCFdEJcOcRdEJcOJdEAcOGdEAcOUdEEcOSdEqPgKcFdEhPfPdMdEEgPYdEBgPYdEbRdBcWdEDdBcEdEGd
    BQdEcLeSAeOARBfZAdEKRGdEIeSkfVfZsBdEbOfZAeSbEdEdSeSeKdEmwQWDdEAWGdEAWBdEAWAUlAWCdEOUAdEbCUCd
    EBWAdENWDdEHeOpFdEdkTeDeCdEEeDMdECeDIdEGeDJdEBeDDADdEfvFAjSdECAqTdEFAWdEOAQdEOBbTdEBBWdEIAeL
    dEcHAjLdEJAbMdEBAcJBCAQBHABBGAbDBDAcIdEUOcRdEeRATdELATdELAdIdEIAYdEfEAdGdEAAcSdEAABdEBAAdEBA
    BdEBADdEAALdEAAAdEAAGdEAAcMdEAADdEBAHdEAAGdEAAbBdEAADdEAAEdEAAAdECAGdEAAnBdEBAlFdEBAbXdMzBdE
    OdMEdEAdMOdEbqLZbEdEFZFdEiEcDGdEAcDQdEBcDGdEAcDBdEAcDEdEEIcJdEbGIAdEeHfUbSdECfUNdEBfUJdEDfUB
    dEmHgEbEdEQfWcFdEEfWAdErVgHbPdEiFgLbQdEDgLAdEhJgRbEdEAgRVdEHgRBdEiPLGdEALDdEALBdEALOdEAeGhOd
    EBeGPdEbOfEcXdEDfEJdEDfEBdEbeEAcPdEcXAcIdEhLCDdEACbAdEACBdEACAdEBCAdEACJdEACDdEACAdEACAdEFCA
    dEDCAdEACAdEACAdEACCdEACBdEACAdEBCAdEACAdEACAdEACAdEACAdEACBdEACAdEBCDdEACGdEACDdEACDdEACAdE
    ACJdEACQdEECCdEACEdEACQdEbZCBdEkJAbRdEDAdVdELAOdEBAOdEAAOdEAAbKdEJAgRdEcDAZUAABdEMAbRdEDAIdE
    GABdENAFdEfXAblWdECAQdECAMdECAiJdEFALdEDAAdEOALdEDAcDdEHAJdEFAbNdEHAbDdEBALdEDABdENAIdEbMAnF
    dEHANdEBAMdECAKdECAcEdEAAAdEDAPdEBALdEDAJdEGAfQdEAAdYdEbnORclfBdEbFRgmNdEBRioBdEBRlbKdEORxXd
    EdqVRuVdEcfXRhhYdEERmoNdEbogoCAAdEbDAdRdEeXBjFdElecT"

end ScopeForest.Unicode
