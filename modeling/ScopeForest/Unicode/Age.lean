import ScopeForest.Unicode.Table

namespace ScopeForest.Unicode

def age : Enumeration where
  values :=
    [[], ["1.1", "v11"], ["2.0", "v20"], ["2.1", "v21"], ["3.0", "v30"], ["3.1", "v31"],
      ["3.2", "v32"], ["4.0", "v40"], ["4.1", "v41"], ["5.0", "v50"], ["5.1", "v51"],
      ["5.2", "v52"], ["6.0", "v60"], ["6.1", "v61"], ["6.2", "v62"], ["6.3", "v63"],
      ["7.0", "v70"], ["8.0", "v80"], ["9.0", "v90"], ["10.0", "v100"], ["11.0", "v110"],
      ["12.0", "v120"], ["12.1", "v121"], ["13.0", "v130"], ["14.0", "v140"], ["15.0", "v150"],
      ["15.1", "v151"], ["16.0", "v160"], ["17.0", "v170"]]
  table :=
    "BtHEDBbDEHGAHAERHCIKJNBdKEEHBBbUEABJEEHQBcREIGAHHIEHCBBEAGMKDBBKBABBAJCBAQAADBGAABAAABTAABbR
    KABGEAGBBAEABAEABAEABAEABRFBGAHEIDEABLEABcNEABLEABbOKAEBGBEDBcAGBBBGBBBGBJABbBEBBHIBBBJFGPJD
    KPLBMBQHAABbLABBGUABbMUABAEAABQBNAAACQIACMBJJABICAICAHBbAADUABEAKHDNAQAKEIABAHIKEBAPAYAIABAM
    ABZKEBSECHCIFMABNGBBcTEBBEEABOEABbDHBBJEEHAENAAEbDHCEbAABHCIbDKREbWGAANJcGABUCLbTABLOAAMbBAB
    MAAATKAEYbEbCAYBAEbBAYHNAQANKQFRBYASHXJYKUASORANbAQALABCHABcAMBBRLAMABELAMBBYKBMEQALBJBIAJBQ
    ABCAABHABBBABBVAABGAABAACBDABBAHABGABBBABBCIAAHBAADBBAABEABBULATBUAABHABAHAAABFADBBABBVAABGA
    ABBAABBAABBABBAAABEADBBABBCACKAAGBDAABAAGBOKAUAAJBCAABGHABAAABCAABVAABGAABBAABEABBJAABCAABCA
    BBAAOBAHCABBJNAHAAGRATFAABCAABHABBBABBVAABGAABBAAHABDABBHKAABBBABBCAGXABBADBBAABCKBABBKHAMFA
    JBBAABFACBCAABDACBBAABAAABBACBBACBCACBHIABCADBEACBCAABDABKAAFBAANIABLHHAEQABCUABHAABCAABWAAB
    JQABEABYAKABGAABCAABDAGBBAAKBRAAAbCAYAABBBKBABBJAGVAKHSAQABBUABHAABCAABWAABJAABEABHBBGAABCAA
    BDAGBBAEbCAYABAAABBJBABBJAAJBZAALTAQABBXABHAABCAABWMABPMATBKABFKAAABCAABDMASAADSCBASGRABBKBA
    BBJKFSCKGAAXAEBAAERACEXAAEIAAEAABEGACEAADEFAAEAAAEHAFQJABECALBcFADBbCAbKBBAABAAAVABBVABAAAVA
    BAVFBDVABGVABCAABAAABAVBBBVABMVABCABBEAABAAABFZAAABJABBBNBAbFCcTAACbGEAKBADCbAMDCFEACAAACUEC
    CGEACAECAAEOAAKAEAIBKCLDMBAbKEbHKAEEKAEBKAEGKCEDKFEZKcLLDKBBbLAANAAENAABBbMGBIBBAIANCBdLLEBc
    PLEBdDLFEGIAEcKIAEAAAEDABEGAAEAAAEDABEbMIAEAAAEDABEbEIAEAAAEDABEGAAEAAAEDABEGIAEGAAEWIAEbEIA
    EAAAEDABEGIAEbMIAESABMBIBEbBACIZAFEdGRAABRFABLAEyFLIEbCACEdCQHAGGMYAGGYAAIYAGWAIGTALGMAAGCAA
    GBALEdOHAABEJAFHJAFEOYAEJAFEdJUAAGEbPKAAELcRAJHbCQBAAHLADHLADHAACHbPABHEAKIbPLBADIZAFIJLAACI
    BHbFIbBABIBLcKAALbCABLKAFLJAFLNABQOXBYNbCOABbCLATJcXYAAAbBBJbSYBbBAKbQNCKLNFMbZAHMDKcDACKOAC
    KbYSIbBBAEUbQABUCNHAHLbINDTAQBVAAEHeDIdJJGKbBQOTDYASAMALAJBBfYCAKDBdLKFBVABBFABBbLABBFABBHAA
    BAAABAAABAAABbEABBcAAABOAABNABBFAABSABBCAABIAABbUEABWGAEFGEHBIBGAIGGEKAAAPDBGGAABBbAAAIEMHAC
    BKCADAECGBIDLCMAOAQCRATAYAbCAANBREBGGIAJDKAAOBcEEBHAIAGOIAJBKALCBbVEAJAKDLARBADBdMEIGLBjHGNB
    AEABeQEAGAEbDGbZHBIKJLLAMKQGSDTABbKEBbBCAVBKAUBfIGTHABfTGJBdBEHGHBTHBGBIAEABdHEBGLIBGJHHIKKA
    LBHBIPJAKJLCKDLJMALSMALAMDLXQABDMABDMBBbBMABbIMABAMABDMCBALABGMBBGGNBbEMCBXMABNMAIGJDNAKANAM
    BGbBKDGPEjVGtRHNIFJGKEJDKbOQCKELEQZABQbFbCAXAQbHUCQLVAQHTAUYRDUOVAIbUYAIbUYAJMKCLAKCJDKFLBIe
    CLGNBAEIbSAANAAENAABIcBNBAGIAMAANMAIWAIIGAAIGAAIGAAIGAAIGAAIGAAIGAAIGAAKbFIXKDIBKSLANJQGSBTE
    UEVAXCYKAbHEZAAEdKALEiFAZELbADBcDECGCEABAAABdFGBABBFGBBdPGAAEBbNKATAUAAABdPAABPEXMCXEIPKTbBB
    AIbAAGPBbCHBAABbJLLHAGOBbBHBIABbXGOBLHDBbUWABeOHDBdUHBBbEHAEjtDXJHcLBbexXIVKHLHNARITUUEXMYCE
    bsUACERGBEPGAELGAECGAEAAILbVKlNATKbFMBKRNHKbBQFRANALdJAHIWJDKEJBKeCMBRAMBNBQLMJNAQCSAUAQBRFU
    BVFYBVEXDbBCbCBYBbCAYAbCAYEbBCATbCAYCXBQANBMAKEIbRXAACLJAFJcDAHKcQSAAHKLAFLbBRBUBKdFAKKALbCA
    CLcZAALKADLBQbEAAKcCAIKNABKJABKDLbBQDLcOAXLENWAJMFABMFABMFAIMGAAMGAAQbVRDQBVBXDADRdBLbTABLJA
    FCqnRALLWADLbWADCdaTBjxTNBGcGLCABIeBAbLBGALBEAEEABYAABEAABAAABBAABBAABeDMPYAbCPBoAYPBcLbCBBc
    BbCGYAFbFBLGAHAYBGPIJAFBDKCQGRBBUGBHBBJAABSAABDADBCGABAAABfEABBAAABdPGBBdPACBFABBFABBFABBCAC
    BGAABGAJECDABCHLAAHZAAHSAAHBAAHOABHNAbHHeSAEHCADHbSACHIIcWQBSBAAKLXAACQAAbUKbTAeZKbCACKbWAOQ
    bBADFbEQAFDAITCFbAAEQbQAEHbDAAHAIbJADINAbPFbLHBFbLHdBABHJAFSbJADSbJADQbNAHQbZAKQAYKAAYOAAYGA
    AYBAAYKAAYOAAYGAAYBACbBbZALQlYAIQVAJQHAXYFAAYbPAAYIAcQHFABHAAAHbRAAHBACHAABHALVAALIQcKAHQIAb
    VRSAARBAEREJZLBACJAKZAEKAbCZAbLNcDADRBNBRPABRbTIDAAIBAEIHAAICAAIbAUBABICADIIUAAGIIAGLbFQbFAb
    FQbMADQLAILcBACLbCABLbAAELHQRAGQDALQGAdBLcUAcCRbYAMRbYAGRFUbNAHUJAFbBbLACbBbCAHbBBAhZLbEAAXb
    PAAXCABXBAPbBCbCCAHbCIAbGbCBbBAZCUbNAHUbPAVYZAbLXbBATVWAIMcZADMbDYFAIQALcNYAAJUAABNYAGNJAFNc
    AAANNUCXAAHQbMAINcURDQAXBNJQAREAAQTAKQRAAQbQSAZCAcJRGAARAAARDAAROAARKAFQcGAEQJAFRAQCAAQHABQB
    ABQVAAQGAAQBAAQEAAUAQIABQBABQCABRAAFQAAEQGABQGACQEAKbBJAAbBAABbBAAAbBbLAAbBJAAbBAABbBAAAbBDA
    AbBJAAbBBAHbBBAbCSdLXASAAASAUAVAXBAbDQcTAHQJAgJQcBABQRRTAbHQcQAKQJAFSMASNcDVAYAAFNJAFbBTAbBR
    ZUAABROADRPYGAhCUcHAdVQdEALQAXGABXAABXHAAXBAAXbDAAXBABXLAIXJAcRVHABVbTABVKAbATcTAHTbZVBTWUAT
    EAMYPQcEAGZJAdHbCHAdJbBbHANbBJAFSIAASbSAASNAJSbCACSbFABSVAASNAcUTGAATBAATbRACTAAATBAATIAHTJA
    FUFAAUBAAUbKAAUBAAUFAGUJAFbCbRADbCJAjLUYAGZQAAZbOACZbBbBAAdGXAAOVbXAMVAJbhUQbPRAAdXJdUQLAAJD
    QAAKRhNAdxJYdUAMLbpEZAVIZbCAJbBfxQAERwKAkdCbBcFAcoRMvWAGQbEAAQJADQBYdAAAYJAFQbDABQFAJQcRAJQJ
    AAQGAAQUAEQSAqPbBcFAhPUdMAEbCYABbCYAbRNcQVFADVANbUVIAGNQAcLSATAVBXAAKXBbCEAISjbOUEVFbCHSbdAX
    sOAbObBAXIbCVAdSbCeKAmwQYDAAYGAAYBAAMBTkYYDAOZAAbCVCABZAANVDAHTpFAdkTQeCAEQMACQIAGQJABQHAfvF
    bBjPbCCACbBqTAFbCWAObCQAOYbTABYWAIYeLAcHFjLAJFbMABKAFgXRKYBAUIcRAeRZTALUTALHdIAIJRUGAfEFdGAA
    FcSAAFBABFAABFBABFDAAFLAAFAAAFDHAFBAAFcMAAFDABFHAAFGAAFbBAAFDAAFEAAFAACFGAAFmZIBABFlDJBABFbX
    RzBAOREAAROAbqLYbEAFZFAiESGAASQABSGAASBAASEAEZcJAbGZAAeHVbSACVNABVJADVBAmHYbEAQVcFAEVAArVZbP
    AiFbBbQADbBAAhJbCbEAAbCVAHbCBAiPYGAAYDAAYBAAYOAAQhOABQPAbOScWVAADSJADSBAbeEUcPAcXVcIAhLNDAAN
    bAAANBAANAABNAAANJAANDAANAAANAAFNAADNAAANAAANAAANCAANBAANAABNAAANAAANAAANAAANAAANBAANAABNDAA
    NGAANDAANDAANAAANJAANQAENCAANEAANQAbZNBAkJKbRADKdVALMOABMNQAAAMOAAMOQVAJLKQBXCLbEUAMALAMKLAM
    ALAMBLAMCLAMCLEMHLAMGLAMJNBVAXCMILAMALBMBLAMJLDMBLAMJSRXAAcDMZLAMBAMLbHMISAADLIAGMBANTFAfXMb
    GQLRCMFQAMcRQARBMTQLMbKQAMEQDREQLMQQGRHMcKQAMAQAMgZQAMDQBRAMcJQBNDQGREMXQRSAQbOSAQdHMENAMPNA
    MCNAMANAMANAMANAMCNAMFNBMDNAMANBMDNAMLQBRBMKQbVMcRQJRASBTBVAXBbCAACZAYCQMACQDSCTBUAVAXBACMeL
    ZCbCDZEQdGUDZAAFVLADYAAOQLADQcDAHQJAFQbNAHQbDABXBbBJADbBBANbCIAbMTLXAVCRISFTASHTHSATBSLVASLT
    AUCSOTMUEVAXAUDXBYAUAVAUDRESMTFUKXBVFXCVBUJVFRAUBVHXAYAVCTWUYVdFbCDAHUNABVDXAZCVCYBACVCXDZBb
    BAbCAACbCAbBAVFXSYDZCXGYDZCbBAZAXCYCbBAAAbCAADbCAZBXGYCZBbBAABbBAYHZAbBAbCAADbCAYGZBAGXfQAAX
    cCbBbKXJbCAAbnMCBFcleSXGYBAbFLgdOYDZAbCFMiNABRinPbCLABTlbKAObAxXAdqVFuVAcfVCBXhhYAEZgfFbCgjH
    AczbVCBAdsyNCBAdsyNCBAdsyNCBAdsyNCBAdsyNCBAdsyNCBAdsyNCBAdsyNCBAdsyNCBAdsyNCBAAFAAbDFdRAeXHj
    FAdsfLChlxH"

def assignedBy? (version : String) : Option CharSet :=
  (age.index? version).map fun n ↦ age.select fun i ↦ 0 < i && i ≤ n

end ScopeForest.Unicode
