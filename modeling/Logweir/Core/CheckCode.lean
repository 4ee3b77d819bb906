/-!
# Check codes

The closed vocabulary of codes a check writes, and the spelling each has on the wire.
-/

set_option autoImplicit false

namespace Logweir.CheckContract

inductive CheckCode where
  | accessDenied | invalidCredentials | bucketNotFound | objectNotFound | endpointUnreachable
  | tlsTrustFailed | regionMismatch | timeout | storeErrorUnclassified | brokerUnreachable
  | authenticationFailed | tlsHandshakeFailed | metadataTimeout | clusterAuthorizationFailed
  | topicAuthorizationFailed | unknownTopicOrPartition | credentialSecretNotFound
  | credentialSecretKeyMissing | trustBundleNotFound | runnerImagePullFailed
  | runnerImageNotPresent | runnerImageInvalid | podUnschedulable | signingKeyMissing
  | volumeMountFailed | runnerServiceAccountMissing | podCreateRejected | disruptedMidCheck
  | foreignPodIgnored | resolved | projected | authenticated | clusterIdentityMatches
  | topicsDescribable | destinationValid | archiveListable | markerWritten | markerAlreadyPresent
  | evidenceReadable | signerUsable | signerRostered | imageAvailable | podStarted
  | contractSupported | policyLoaded | planParsed | planMatchesReferences | mappedNamesLegal
  | recoveryPointSucceeded | catalogPointSelectable | manifestReadable | pointInTimeCovered
  | segmentsPresent | targetAllowed | markerHealthy | mappedTopicsAbsent | topicCreateValidated
  | timestampWithinBound | approvalVerified | approverKeyValid | valid | credentialBound
  | engineProtocolSupported | topicConfigsReadable | groupTypesListed | registryAnswered
  | schemasImportable | restoreSucceeded | restoreEvidenceVerified | targetIsTheRestores
  | groupsAdmissible | succeeded | connectionNotFound | connectionInvalid
  | credentialReferenceMissing | credentialBindingMismatch | clusterIdentityChanged
  | sourceIsAllowlistedTarget | topicNotFound | topicNotAuthorized | destinationNotFound
  | destinationNotValid | destinationRoleNotConfigured | executionContextConflict
  | caBundleUnsupportedByEngine | caBundleNotFound | caBundleKeyMissing | caBundleTooLarge
  | caBundleInvalid | addressingUnsupportedByEngine | controllerIdentityNotAllowlisted
  | workloadIdentityNotInjected | signingKeyUnreadable | signingKeyInvalid | trustRosterNotFound
  | trustRosterNotLoaded | signerNotRostered | signerKeyExpired | runnerContractUnsupported
  | policyUnreadable | planUnparseable | planHashMismatch | planDestinationMismatch
  | planEvidenceDestinationMismatch | planTargetMismatch | planTopicsNotInRecoveryPoint
  | mappedTopicNameIllegal | topicMappingIdentity | globInTopic | expansionInTopic
  | recoveryPointNotFound | recoveryPointNotSucceeded | recoveryPointUidChanged
  | recoveryPointLocationMismatch | catalogPointNotSelectable | catalogPointRefusedByController
  | catalogPointBindingMismatch | catalogPointSignerUntrusted | backupSetNotFound
  | manifestUnreadable | manifestSuperseded | pointBindingMismatch | pointInTimeBeforeCoverage
  | pointInTimeAfterCoverage | topicNotInBackupSet | selectionInvalid | windowStartBeforeCoverage
  | partitionNotInBackupSet | selectionEmpty | segmentMissing | targetNotAllowlisted
  | targetEqualsSource | markerTopicMissing | markerTopicErrored | mappedTopicExists
  | topicCreateNotAuthorized | topicConfigRejected | replicationFactorExceedsBrokers
  | timestampBoundExceeded | approvalNotVerified | approvalExpired | approvalPlanMismatch
  | approvalSubjectMismatch | approverKeyExpiresBeforeDeadline | archiveUrlUnreadable
  | conditionalCreateUnsupported | engineProtocolUnsupported | topicConfigsNotReadable
  | groupTypesNotListed | registryUnauthorized | registryUnreachable | schemaConflict
  | schemaSnapshotInvalid | schemaRegistryReadOnly | restoreNotFound | restoreNotSucceeded
  | restoreEvidenceRefused | targetNotTheRestores | groupNotAdmissible | notReady | podNotStarted
  | blockedByPrerequisite | clusterIdentityNotObserved | topicVisibilityUnknown | writeNotProbed
  | evidenceReadNotConfigured | signerKeyIdNotObserved | readVerifiedOnlyAtExecution
  | archivePrefixWriteVerifiedOnlyAtExecution | networkPolicyEnforcementNotObservable
  | segmentListTooLarge | mappedTopicVisibilityUnknown | topicCreateValidationUnsupported
  | brokerConfigsNotReadable | logAppendTimeOverrideVerifiedOnlyAtExecution | approvalPending
  | approverKeyWindowUnknown | subjectNotCreated | recoveryPointLocationUnknown
  | catalogPointViewUnavailable | catalogPointSignerUnknown | trustUnknown
  | apiVersionsNotObserved | timestampBoundNotReported | checkContractMismatch | resultUnreadable
  | deadlineExceeded | cancelRequested | stalled | concurrencyLimited | checkPlanConflict
  | resultStorageConflict
  deriving DecidableEq

namespace CheckCode

def asStr : CheckCode → String
  | .accessDenied => "AccessDenied"
  | .invalidCredentials => "InvalidCredentials"
  | .bucketNotFound => "BucketNotFound"
  | .objectNotFound => "ObjectNotFound"
  | .endpointUnreachable => "EndpointUnreachable"
  | .tlsTrustFailed => "TlsTrustFailed"
  | .regionMismatch => "RegionMismatch"
  | .timeout => "Timeout"
  | .storeErrorUnclassified => "StoreErrorUnclassified"
  | .brokerUnreachable => "BrokerUnreachable"
  | .authenticationFailed => "AuthenticationFailed"
  | .tlsHandshakeFailed => "TlsHandshakeFailed"
  | .metadataTimeout => "MetadataTimeout"
  | .clusterAuthorizationFailed => "ClusterAuthorizationFailed"
  | .topicAuthorizationFailed => "TopicAuthorizationFailed"
  | .unknownTopicOrPartition => "UnknownTopicOrPartition"
  | .credentialSecretNotFound => "CredentialSecretNotFound"
  | .credentialSecretKeyMissing => "CredentialSecretKeyMissing"
  | .trustBundleNotFound => "TrustBundleNotFound"
  | .runnerImagePullFailed => "RunnerImagePullFailed"
  | .runnerImageNotPresent => "RunnerImageNotPresent"
  | .runnerImageInvalid => "RunnerImageInvalid"
  | .podUnschedulable => "PodUnschedulable"
  | .signingKeyMissing => "SigningKeyMissing"
  | .volumeMountFailed => "VolumeMountFailed"
  | .runnerServiceAccountMissing => "RunnerServiceAccountMissing"
  | .podCreateRejected => "PodCreateRejected"
  | .disruptedMidCheck => "DisruptedMidCheck"
  | .foreignPodIgnored => "ForeignPodIgnored"
  | .resolved => "Resolved"
  | .projected => "Projected"
  | .authenticated => "Authenticated"
  | .clusterIdentityMatches => "ClusterIdentityMatches"
  | .topicsDescribable => "TopicsDescribable"
  | .destinationValid => "DestinationValid"
  | .archiveListable => "ArchiveListable"
  | .markerWritten => "MarkerWritten"
  | .markerAlreadyPresent => "MarkerAlreadyPresent"
  | .evidenceReadable => "EvidenceReadable"
  | .signerUsable => "SignerUsable"
  | .signerRostered => "SignerRostered"
  | .imageAvailable => "ImageAvailable"
  | .podStarted => "PodStarted"
  | .contractSupported => "ContractSupported"
  | .policyLoaded => "PolicyLoaded"
  | .planParsed => "PlanParsed"
  | .planMatchesReferences => "PlanMatchesReferences"
  | .mappedNamesLegal => "MappedNamesLegal"
  | .recoveryPointSucceeded => "RecoveryPointSucceeded"
  | .catalogPointSelectable => "CatalogPointSelectable"
  | .manifestReadable => "ManifestReadable"
  | .pointInTimeCovered => "PointInTimeCovered"
  | .segmentsPresent => "SegmentsPresent"
  | .targetAllowed => "TargetAllowed"
  | .markerHealthy => "MarkerHealthy"
  | .mappedTopicsAbsent => "MappedTopicsAbsent"
  | .topicCreateValidated => "TopicCreateValidated"
  | .timestampWithinBound => "TimestampWithinBound"
  | .approvalVerified => "ApprovalVerified"
  | .approverKeyValid => "ApproverKeyValid"
  | .valid => "Valid"
  | .credentialBound => "CredentialBound"
  | .engineProtocolSupported => "EngineProtocolSupported"
  | .topicConfigsReadable => "TopicConfigsReadable"
  | .groupTypesListed => "GroupTypesListed"
  | .registryAnswered => "RegistryAnswered"
  | .schemasImportable => "SchemasImportable"
  | .restoreSucceeded => "RestoreSucceeded"
  | .restoreEvidenceVerified => "RestoreEvidenceVerified"
  | .targetIsTheRestores => "TargetIsTheRestores"
  | .groupsAdmissible => "GroupsAdmissible"
  | .succeeded => "Succeeded"
  | .connectionNotFound => "ConnectionNotFound"
  | .connectionInvalid => "ConnectionInvalid"
  | .credentialReferenceMissing => "CredentialReferenceMissing"
  | .credentialBindingMismatch => "CredentialBindingMismatch"
  | .clusterIdentityChanged => "ClusterIdentityChanged"
  | .sourceIsAllowlistedTarget => "SourceIsAllowlistedTarget"
  | .topicNotFound => "TopicNotFound"
  | .topicNotAuthorized => "TopicNotAuthorized"
  | .destinationNotFound => "DestinationNotFound"
  | .destinationNotValid => "DestinationNotValid"
  | .destinationRoleNotConfigured => "DestinationRoleNotConfigured"
  | .executionContextConflict => "ExecutionContextConflict"
  | .caBundleUnsupportedByEngine => "CaBundleUnsupportedByEngine"
  | .caBundleNotFound => "CaBundleNotFound"
  | .caBundleKeyMissing => "CaBundleKeyMissing"
  | .caBundleTooLarge => "CaBundleTooLarge"
  | .caBundleInvalid => "CaBundleInvalid"
  | .addressingUnsupportedByEngine => "AddressingUnsupportedByEngine"
  | .controllerIdentityNotAllowlisted => "ControllerIdentityNotAllowlisted"
  | .workloadIdentityNotInjected => "WorkloadIdentityNotInjected"
  | .signingKeyUnreadable => "SigningKeyUnreadable"
  | .signingKeyInvalid => "SigningKeyInvalid"
  | .trustRosterNotFound => "TrustRosterNotFound"
  | .trustRosterNotLoaded => "TrustRosterNotLoaded"
  | .signerNotRostered => "SignerNotRostered"
  | .signerKeyExpired => "SignerKeyExpired"
  | .runnerContractUnsupported => "RunnerContractUnsupported"
  | .policyUnreadable => "PolicyUnreadable"
  | .planUnparseable => "PlanUnparseable"
  | .planHashMismatch => "PlanHashMismatch"
  | .planDestinationMismatch => "PlanDestinationMismatch"
  | .planEvidenceDestinationMismatch => "PlanEvidenceDestinationMismatch"
  | .planTargetMismatch => "PlanTargetMismatch"
  | .planTopicsNotInRecoveryPoint => "PlanTopicsNotInRecoveryPoint"
  | .mappedTopicNameIllegal => "MappedTopicNameIllegal"
  | .topicMappingIdentity => "TopicMappingIdentity"
  | .globInTopic => "GlobInTopic"
  | .expansionInTopic => "ExpansionInTopic"
  | .recoveryPointNotFound => "RecoveryPointNotFound"
  | .recoveryPointNotSucceeded => "RecoveryPointNotSucceeded"
  | .recoveryPointUidChanged => "RecoveryPointUidChanged"
  | .recoveryPointLocationMismatch => "RecoveryPointLocationMismatch"
  | .catalogPointNotSelectable => "CatalogPointNotSelectable"
  | .catalogPointRefusedByController => "CatalogPointRefusedByController"
  | .catalogPointBindingMismatch => "CatalogPointBindingMismatch"
  | .catalogPointSignerUntrusted => "CatalogPointSignerUntrusted"
  | .backupSetNotFound => "BackupSetNotFound"
  | .manifestUnreadable => "ManifestUnreadable"
  | .manifestSuperseded => "ManifestSuperseded"
  | .pointBindingMismatch => "PointBindingMismatch"
  | .pointInTimeBeforeCoverage => "PointInTimeBeforeCoverage"
  | .pointInTimeAfterCoverage => "PointInTimeAfterCoverage"
  | .topicNotInBackupSet => "TopicNotInBackupSet"
  | .selectionInvalid => "SelectionInvalid"
  | .windowStartBeforeCoverage => "WindowStartBeforeCoverage"
  | .partitionNotInBackupSet => "PartitionNotInBackupSet"
  | .selectionEmpty => "SelectionEmpty"
  | .segmentMissing => "SegmentMissing"
  | .targetNotAllowlisted => "TargetNotAllowlisted"
  | .targetEqualsSource => "TargetEqualsSource"
  | .markerTopicMissing => "MarkerTopicMissing"
  | .markerTopicErrored => "MarkerTopicErrored"
  | .mappedTopicExists => "MappedTopicExists"
  | .topicCreateNotAuthorized => "TopicCreateNotAuthorized"
  | .topicConfigRejected => "TopicConfigRejected"
  | .replicationFactorExceedsBrokers => "ReplicationFactorExceedsBrokers"
  | .timestampBoundExceeded => "TimestampBoundExceeded"
  | .approvalNotVerified => "ApprovalNotVerified"
  | .approvalExpired => "ApprovalExpired"
  | .approvalPlanMismatch => "ApprovalPlanMismatch"
  | .approvalSubjectMismatch => "ApprovalSubjectMismatch"
  | .approverKeyExpiresBeforeDeadline => "ApproverKeyExpiresBeforeDeadline"
  | .archiveUrlUnreadable => "ArchiveUrlUnreadable"
  | .conditionalCreateUnsupported => "ConditionalCreateUnsupported"
  | .engineProtocolUnsupported => "EngineProtocolUnsupported"
  | .topicConfigsNotReadable => "TopicConfigsNotReadable"
  | .groupTypesNotListed => "GroupTypesNotListed"
  | .registryUnauthorized => "RegistryUnauthorized"
  | .registryUnreachable => "RegistryUnreachable"
  | .schemaConflict => "SchemaConflict"
  | .schemaSnapshotInvalid => "SchemaSnapshotInvalid"
  | .schemaRegistryReadOnly => "SchemaRegistryReadOnly"
  | .restoreNotFound => "RestoreNotFound"
  | .restoreNotSucceeded => "RestoreNotSucceeded"
  | .restoreEvidenceRefused => "RestoreEvidenceRefused"
  | .targetNotTheRestores => "TargetNotTheRestores"
  | .groupNotAdmissible => "GroupNotAdmissible"
  | .notReady => "NotReady"
  | .podNotStarted => "PodNotStarted"
  | .blockedByPrerequisite => "BlockedByPrerequisite"
  | .clusterIdentityNotObserved => "ClusterIdentityNotObserved"
  | .topicVisibilityUnknown => "TopicVisibilityUnknown"
  | .writeNotProbed => "WriteNotProbed"
  | .evidenceReadNotConfigured => "EvidenceReadNotConfigured"
  | .signerKeyIdNotObserved => "SignerKeyIdNotObserved"
  | .readVerifiedOnlyAtExecution => "ReadVerifiedOnlyAtExecution"
  | .archivePrefixWriteVerifiedOnlyAtExecution => "ArchivePrefixWriteVerifiedOnlyAtExecution"
  | .networkPolicyEnforcementNotObservable => "NetworkPolicyEnforcementNotObservable"
  | .segmentListTooLarge => "SegmentListTooLarge"
  | .mappedTopicVisibilityUnknown => "MappedTopicVisibilityUnknown"
  | .topicCreateValidationUnsupported => "TopicCreateValidationUnsupported"
  | .brokerConfigsNotReadable => "BrokerConfigsNotReadable"
  | .logAppendTimeOverrideVerifiedOnlyAtExecution => "LogAppendTimeOverrideVerifiedOnlyAtExecution"
  | .approvalPending => "ApprovalPending"
  | .approverKeyWindowUnknown => "ApproverKeyWindowUnknown"
  | .subjectNotCreated => "SubjectNotCreated"
  | .recoveryPointLocationUnknown => "RecoveryPointLocationUnknown"
  | .catalogPointViewUnavailable => "CatalogPointViewUnavailable"
  | .catalogPointSignerUnknown => "CatalogPointSignerUnknown"
  | .trustUnknown => "TrustUnknown"
  | .apiVersionsNotObserved => "ApiVersionsNotObserved"
  | .timestampBoundNotReported => "TimestampBoundNotReported"
  | .checkContractMismatch => "CheckContractMismatch"
  | .resultUnreadable => "ResultUnreadable"
  | .deadlineExceeded => "DeadlineExceeded"
  | .cancelRequested => "CancelRequested"
  | .stalled => "Stalled"
  | .concurrencyLimited => "ConcurrencyLimited"
  | .checkPlanConflict => "CheckPlanConflict"
  | .resultStorageConflict => "ResultStorageConflict"

theorem all_ofList {p : Char → Bool} {l : List Char} (all : l.all p = true) :
    (String.ofList l).toList.all p = true := by
  rw [String.toList_ofList, all]

theorem asStr_letters (code : CheckCode) :
    code.asStr.toList.all (fun c => c.isUpper || c.isLower) = true := by
  -- The spellings are literals, so each case hands its letters to `all_ofList`.
  cases code <;> (apply all_ofList; decide)

end CheckCode

end Logweir.CheckContract
